import EasyLua.Seri.Pack

/-!
# Unpacking

`luaseri_unpack` of `lua-seri.cpp` and the functions it calls, on a `read_block` with
its signed counters. Every call of `rb_read` and of `lua_pushlstring` is logged. Reading
memory outside the buffer is undefined in the source; here it is an error of its own.
The recursion and the loops take fuel, and running out of it is an error too. The lines
in the error texts are those of the source.
-/

namespace EasyLua.Seri

/-- The counters of a `read_block`. -/
structure Cursor where
  ptr : Int
  len : Int

/-- `rb->ptr += sz; rb->len -= sz`. -/
def Cursor.move (cursor : Cursor) (sz : Int) : Cursor where
  ptr := cursor.ptr + sz
  len := cursor.len - sz

/-- A logged call: `rb_read` with the counters before and after it, its size and the offset
it returned, or `lua_pushlstring` with the offset and the size it was given. -/
inductive Access
  | read (before after : Cursor) (sz : Int) (result : Option Int)
  | pushlstring (offset : Int) (size : Nat)

/-- `struct read_block`, and the log. -/
structure ReadBlock where
  buffer : Bytes
  cursor : Cursor
  log : List Access

/-- Log a call. -/
def ReadBlock.record (rb : ReadBlock) (access : Access) : ReadBlock :=
  { rb with log := rb.log ++ [access] }

/-- Why a decode ends without values. -/
inductive UnpackError
  /-- A Lua error with this text. -/
  | lua (message : String)
  | outOfBounds
  | outOfFuel

abbrev Unpack := EStateM UnpackError ReadBlock

/-- `rball_init`. -/
def rballInit (buffer : Bytes) (size : Int) : ReadBlock where
  buffer := buffer
  cursor := { ptr := 0, len := size }
  log := []

/-- `rb_read`: the offset of the region it returns, or null. -/
def rbRead (sz : Int) : Unpack (Option Int) := fun rb =>
  if rb.cursor.len < sz then .ok none (rb.record (.read rb.cursor rb.cursor sz none))
  else
    let moved := { rb with cursor := rb.cursor.move sz }
    .ok (some rb.cursor.ptr) (moved.record (.read rb.cursor moved.cursor sz (some rb.cursor.ptr)))

/-- Memory at an offset into the buffer. -/
def load (offset : Int) (count : Nat) : Unpack Bytes := fun rb =>
  if 0 ≤ offset ∧ offset + count ≤ rb.buffer.length then
    .ok ((rb.buffer.drop offset.toNat).take count) rb
  else .error .outOfBounds rb

/-- `invalid_stream` at a line of the source. -/
def invalidStream {α : Type} (line : Nat) : Unpack α := fun rb =>
  .error (.lua ("Invalid serialize stream " ++ toString rb.cursor.len ++
    " (line:" ++ toString line ++ ")")) rb

/-- The recurring lines that read `sz` bytes, or raise an error when there are too few. -/
def readOrInvalid (line sz : Nat) : Unpack Bytes := do
  match ← rbRead sz with
  | none => invalidStream line
  | some p => load p sz

/-- The same, copied into an unsigned number. -/
def readNumber (line sz : Nat) : Unpack Nat := do
  let bytes ← readOrInvalid line sz
  return LittleEndian.decode bytes

/-- `get_integer`. -/
def getInteger (cookie : Nat) : Unpack (BitVec 64) :=
  match cookie with
  | TYPE_NUMBER_ZERO => return 0
  | TYPE_NUMBER_BYTE => do
      let n ← readNumber 375 1
      return BitVec.ofNat 64 n
  | TYPE_NUMBER_WORD => do
      let n ← readNumber 383 2
      return BitVec.ofNat 64 n
  | TYPE_NUMBER_DWORD => do
      let n ← readNumber 391 4
      return (BitVec.ofNat 32 n).signExtend 64
  | TYPE_NUMBER_QWORD => do
      let n ← readNumber 399 8
      return BitVec.ofNat 64 n
  | _ => invalidStream 404

/-- `get_real`, on the bits of the double. -/
def getReal : Unpack (BitVec 64) := do
  let n ← readNumber 414 8
  return BitVec.ofNat 64 n

/-- `get_pointer`. -/
def getPointer : Unpack (BitVec 64) := do
  let n ← readNumber 424 8
  return BitVec.ofNat 64 n

/-- `MAX_SIZE - sizeof(TString)`, from which on `luaS_newlstr` refuses a string. -/
def maxString : Nat := 2 ^ 63 - 1 - 24

/-- `lua_pushlstring`, whose length argument is the `int` converted to `size_t`. -/
def pushlstring (offset len : Int) : Unpack Data := do
  let size := (BitVec.ofInt 64 len).toNat
  modify fun rb => rb.record (.pushlstring offset size)
  if maxString ≤ size then throw (.lua "memory allocation error: block too big")
  else do
    let str ← load offset size
    return .scalar (.string str)

/-- `get_buffer`. -/
def getBuffer (len : Int) : Unpack Data := do
  match ← rbRead len with
  | none => invalidStream 434
  | some p => pushlstring p len

/-- The type and the cookie in the first byte of a value. -/
def splitHeader (byte : Nat) : Nat × Nat := (byte &&& 7, byte >>> 3)

/-- The array size that `unpack_table` uses: its argument, or an encoded integer. -/
def getArraySize (arraySize : Nat) : Unpack Int :=
  if arraySize = (MAX_COOKIE - 1).toNat then do
    let byte ← readNumber 447 1
    let (type, cookie) := splitHeader byte
    if type ≠ TYPE_NUMBER ∨ cookie = TYPE_NUMBER_REAL then invalidStream 452
    else do
      let value ← getInteger cookie
      return (value.setWidth 32).toInt
  else return arraySize

/-- The first loop of `unpack_table`, with `count` rounds left from `i` on. -/
def unpackArray (unpackOne : Unpack Data) : Nat → Int → NewTable → Unpack NewTable
  | 0, _, table => return table
  | count + 1, i, table => do
      let value ← unpackOne
      unpackArray unpackOne count (i + 1) (table.rawseti i value)

/-- The second loop of `unpack_table`, which ends at a nil key. -/
def unpackHash (unpackOne : Unpack Data) : Nat → NewTable → Unpack Data
  | 0, _ => throw .outOfFuel
  | fuel + 1, table => do
      match ← unpackOne with
      | .nil => return table.toData
      | key =>
          let value ← unpackOne
          match table.rawset key value with
          | .ok table => unpackHash unpackOne fuel table
          | .error message => throw (.lua message)

/-- `unpack_table`. -/
def unpackTable (fuel : Nat) (unpackOne : Unpack Data) (arraySize : Nat) : Unpack Data := do
  let arraySize ← getArraySize arraySize
  let table ← unpackArray unpackOne arraySize.toNat 1 .empty
  unpackHash unpackOne fuel table

/-- `push_value`. -/
def pushValue (fuel : Nat) (unpackOne : Unpack Data) (type cookie : Nat) : Unpack Data :=
  match type with
  | TYPE_NIL => return .nil
  | TYPE_BOOLEAN => return .scalar (.boolean (cookie ≠ 0))
  | TYPE_NUMBER =>
      if cookie = TYPE_NUMBER_REAL then do
        let bits ← getReal
        return .scalar (.number bits)
      else do
        let value ← getInteger cookie
        return .scalar (.integer value)
  | TYPE_USERDATA => do
      let pointer ← getPointer
      return .scalar (.lightUserdata pointer)
  | TYPE_SHORT_STRING => getBuffer cookie
  | TYPE_LONG_STRING =>
      if cookie = 2 then do
        let n ← readNumber 500 2
        getBuffer n
      else if cookie = 4 then do
        let n ← readNumber 511 4
        -- the length is unsigned, and `get_buffer` takes an `int`
        getBuffer (toInt n)
      else invalidStream 507
  | TYPE_TABLE => unpackTable fuel unpackOne cookie
  | _ => invalidStream 524

/-- `unpack_one`. -/
def unpackOne : Nat → Unpack Data
  | 0 => throw .outOfFuel
  | fuel + 1 => do
      let byte ← readNumber 535 1
      let (type, cookie) := splitHeader byte
      pushValue fuel (unpackOne fuel) type cookie

/-- The loop of `luaseri_unpack`: it ends when no byte is left. -/
def unpackFrom : Nat → Unpack (List Data)
  | 0 => throw .outOfFuel
  | fuel + 1 => do
      match ← rbRead 1 with
      | none => return []
      | some p =>
          let bytes ← load p 1
          let (type, cookie) := splitHeader (LittleEndian.decode bytes)
          let value ← pushValue fuel (unpackOne fuel) type cookie
          let rest ← unpackFrom fuel
          return value :: rest

/-- The arguments of `luaseri_unpack`: none or nil, a string, or a pointer to a shared
buffer and a length. -/
inductive UnpackArgument
  | none
  | string (bytes : Bytes)
  | pointer (buffer : Option Bytes) (len : BitVec 64)

/-- `luaseri_unpack` after it has found the buffer and converted the length. -/
def unpackBuffer (buffer : Option Bytes) (len : Int) :
    EStateM.Result UnpackError ReadBlock (List Data) :=
  if len = 0 then .ok [] (rballInit [] 0)
  else
    match buffer with
    | .none => .error (.lua "deserialize null pointer") (rballInit [] 0)
    | .some buffer => unpackFrom (buffer.length + 1) (rballInit buffer len)

/-- `luaseri_unpack`. -/
def luaseriUnpack : UnpackArgument → EStateM.Result UnpackError ReadBlock (List Data)
  | .none => .ok [] (rballInit [] 0)
  | .string bytes => unpackBuffer (some bytes) (toInt bytes.length)
  | .pointer buffer len => unpackBuffer buffer (toInt len.toInt)

end EasyLua.Seri
