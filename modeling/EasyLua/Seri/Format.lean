import EasyLua.Foundation.LittleEndian
import EasyLua.Foundation.Parser
import EasyLua.Seri.Value

/-!
# The stream format

What the serialized bytes mean, apart from the buffers they are written to and read
from: the bytes of a value, and a parser of lists of bytes. Numbers and lengths are
unbounded here, so the format says what the code does as long as its `int`s are exact.
-/

namespace EasyLua.Seri.Format

/-! ## Encoding -/

/-- The first byte of a value: its type in three bits, the cookie in the other five. -/
def header (type cookie : Nat) : UInt8 := UInt8.ofNat (type + 8 * cookie)

/-- The shortest of the five forms that holds an integer. -/
def encodeInteger (v : BitVec 64) : Bytes :=
  if v.toInt = 0 then [header 2 0]
  else if v.toInt < -2 ^ 31 ∨ 2 ^ 31 ≤ v.toInt then header 2 6 :: LittleEndian.encode 8 v.toNat
  else if 0 < v.toInt ∧ v.toInt < 2 ^ 8 then header 2 1 :: LittleEndian.encode 1 v.toNat
  else if 0 < v.toInt ∧ v.toInt < 2 ^ 16 then header 2 2 :: LittleEndian.encode 2 v.toNat
  else header 2 4 :: LittleEndian.encode 4 v.toNat

/-- A string after its length, in one of three forms. -/
def encodeString (str : Bytes) : Bytes :=
  if str.length < 32 then header 4 str.length :: str
  else if str.length < 2 ^ 16 then header 5 2 :: LittleEndian.encode 2 str.length ++ str
  else header 5 4 :: LittleEndian.encode 4 str.length ++ str

def encodeScalar : Scalar → Bytes
  | .boolean value => [header 1 (if value then 1 else 0)]
  | .integer value => encodeInteger value
  | .number bits => header 2 8 :: LittleEndian.encode 8 bits.toNat
  | .lightUserdata pointer => header 3 0 :: LittleEndian.encode 8 pointer.toNat
  | .string str => encodeString str

/-- The header of a table with its array size, in one of two forms. -/
def encodeTableHeader (arraySize : Nat) : Bytes :=
  if arraySize < 31 then [header 6 arraySize]
  else header 6 31 :: encodeInteger (BitVec.ofNat 64 arraySize)

/-- The array fields of a table that come right after its header. -/
def arrayFields (table : LuaTable) : List LuaValue :=
  (List.range table.border).map fun i : Nat => table.rawgeti (i + 1)

theorem length_arrayFields (table : LuaTable) : (arrayFields table).length = table.border := by
  rw [arrayFields, List.length_map, List.length_range]

/-- A key in the array part. -/
def inArray (arraySize : Nat) : LuaValue → Bool
  | .scalar (.integer x) => 0 < x.toInt ∧ x.toInt ≤ arraySize
  | _ => false

/-- The other entries of a table, up to the closing nil. -/
def hashEntries (table : LuaTable) : List (LuaValue × LuaValue) :=
  table.entries.filter fun entry => !inArray table.border entry.1

/-- The bytes of a value with at most so many levels. Nothing is said about values that
cannot be packed. -/
def encodeOne (heap : Heap) : Nat → LuaValue → Bytes
  | 0, _ => []
  | levels + 1, value =>
      match value with
      | .nil => [header 0 0]
      | .scalar scalar => encodeScalar scalar
      | .table ref =>
          match (heap ref).pairs with
          | none =>
              encodeTableHeader (heap ref).border ++
                (arrayFields (heap ref)).flatMap (encodeOne heap levels) ++
                (hashEntries (heap ref)).flatMap (fun entry =>
                  encodeOne heap levels entry.1 ++ encodeOne heap levels entry.2) ++
                [header 0 0]
          | some pairs =>
              encodeTableHeader 0 ++
                pairs.flatMap (fun pair =>
                  encodeOne heap levels pair.1 ++ encodeOne heap levels pair.2) ++
                [header 0 0]
      | .unsupported _ _ => []

/-- The bytes of a list of values. -/
def encode (heap : Heap) (levels : Nat) (values : List LuaValue) : Bytes :=
  values.flatMap (encodeOne heap levels)

/-- The value can be packed with at most so many levels. -/
def Packable (heap : Heap) : Nat → LuaValue → Prop
  | 0, _ => False
  | levels + 1, value =>
      match value with
      | .nil => True
      | .scalar _ => True
      | .table ref =>
          match (heap ref).pairs with
          | none =>
              (∀ field ∈ arrayFields (heap ref), Packable heap levels field) ∧
                ∀ entry ∈ hashEntries (heap ref),
                  Packable heap levels entry.1 ∧ Packable heap levels entry.2
          | some pairs =>
              ∀ pair ∈ pairs, Packable heap levels pair.1 ∧ Packable heap levels pair.2
      | .unsupported _ _ => False

/-! ## Parsing -/

/-- Why a list of bytes is no sequence of values. -/
inductive Failure
  /-- The bytes end within a value. -/
  | truncated
  /-- A type or a cookie that no value has. -/
  | malformed
  /-- A string of at least `2 ^ 31` bytes is announced. -/
  | hugeLength
  /-- A key that no table can have. -/
  | badKey
  /-- The bound on the recursion was too low. -/
  | outOfFuel
  deriving DecidableEq

abbrev ByteParser := Parser UInt8 Failure

/-- A little-endian number. -/
def parseNumber (count : Nat) : ByteParser Nat := do
  let bytes ← Parser.take .truncated count
  return LittleEndian.decode bytes

/-- The bits of a double or of a pointer. -/
def parseBits : ByteParser (BitVec 64) := do
  let n ← parseNumber 8
  return BitVec.ofNat 64 n

def parseInteger (cookie : Nat) : ByteParser (BitVec 64) :=
  match cookie with
  | 0 => return 0
  | 1 => do
      let n ← parseNumber 1
      return BitVec.ofNat 64 n
  | 2 => do
      let n ← parseNumber 2
      return BitVec.ofNat 64 n
  | 4 => do
      let n ← parseNumber 4
      return (BitVec.ofNat 32 n).signExtend 64
  | 6 => do
      let n ← parseNumber 8
      return BitVec.ofNat 64 n
  | _ => throw .malformed

def parseString (length : Nat) : ByteParser Data := do
  let str ← Parser.take .truncated length
  return .scalar (.string str)

/-- A string after a length of four bytes. -/
def parseLongString : ByteParser Data := do
  let length ← parseNumber 4
  if 2 ^ 31 ≤ length then throw .hugeLength else parseString length

def parseHeader : ByteParser (Nat × Nat) := do
  let byte ← parseNumber 1
  return (byte % 8, byte / 8)

/-- The array size of a table whose header has this cookie. -/
def parseArraySize (cookie : Nat) : ByteParser Int :=
  if cookie = 31 then do
    let (type, cookie) ← parseHeader
    if type ≠ 2 ∨ cookie = 8 then throw .malformed
    else do
      let value ← parseInteger cookie
      return (value.setWidth 32).toInt
  else return cookie

/-- `count` array fields from the index `i` on. -/
def parseArray (parseOne : ByteParser Data) : Nat → Int → NewTable → ByteParser NewTable
  | 0, _, table => return table
  | count + 1, i, table => do
      let value ← parseOne
      parseArray parseOne count (i + 1) (table.rawseti i value)

/-- Keys and values up to a nil. -/
def parseHash (parseOne : ByteParser Data) : Nat → NewTable → ByteParser Data
  | 0, _ => throw .outOfFuel
  | fuel + 1, table => do
      match ← parseOne with
      | .nil => return table.toData
      | key =>
          let value ← parseOne
          match table.rawset key value with
          | .ok table => parseHash parseOne fuel table
          | .error _ => throw .badKey

def parseTable (fuel : Nat) (parseOne : ByteParser Data) (cookie : Nat) : ByteParser Data := do
  let arraySize ← parseArraySize cookie
  let table ← parseArray parseOne arraySize.toNat 1 .empty
  parseHash parseOne fuel table

/-- A value after its header. -/
def parseValue (fuel : Nat) (parseOne : ByteParser Data) (type cookie : Nat) : ByteParser Data :=
  match type with
  | 0 => return .nil
  | 1 => return .scalar (.boolean (cookie ≠ 0))
  | 2 =>
      if cookie = 8 then do
        let bits ← parseBits
        return .scalar (.number bits)
      else do
        let value ← parseInteger cookie
        return .scalar (.integer value)
  | 3 => do
      let pointer ← parseBits
      return .scalar (.lightUserdata pointer)
  | 4 => parseString cookie
  | 5 =>
      if cookie = 2 then do
        let length ← parseNumber 2
        parseString length
      else if cookie = 4 then parseLongString
      else throw .malformed
  | 6 => parseTable fuel parseOne cookie
  | _ => throw .malformed

/-- One value. -/
def parseOne : Nat → ByteParser Data
  | 0 => throw .outOfFuel
  | fuel + 1 => do
      let (type, cookie) ← parseHeader
      parseValue fuel (parseOne fuel) type cookie

/-- Values up to the end of the bytes. -/
def parseFrom : Nat → ByteParser (List Data)
  | 0 => throw .outOfFuel
  | fuel + 1 => Parser.orEnd [] do
      let value ← parseOne (fuel + 1)
      let rest ← parseFrom fuel
      return value :: rest

/-- The values in a list of bytes. -/
def parse (bytes : Bytes) : Except Failure (List Data) :=
  (parseFrom (bytes.length + 1) bytes).map Prod.fst

end EasyLua.Seri.Format
