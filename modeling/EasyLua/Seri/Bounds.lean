import EasyLua.Seri.Fuel
import EasyLua.Seri.Unpack

/-!
# The decoder stays in its buffer

The decoder simulates the parser of the format: its counters stand for the bytes that
are left, and every access so far was safe. The one exception is a long string whose
announced length is no `int`: its read moves the counters backwards. So the accesses are
safe exactly when the parser does not come to such a length.
-/

namespace EasyLua.Seri

open Format

/-- The counters are not negative and add up to the size of the buffer. -/
def Cursor.Within (cursor : Cursor) (n : Nat) : Prop :=
  0 ≤ cursor.ptr ∧ 0 ≤ cursor.len ∧ cursor.ptr + cursor.len = n

/-- `rb_read` keeps the counters within the buffer, does not move backwards and returns a
region of the buffer; `lua_pushlstring` is given no more bytes than remain. -/
def Access.Safe (n : Nat) : Access → Prop
  | .read before after sz result =>
      before.Within n ∧ after.Within n ∧ before.ptr ≤ after.ptr ∧
        ∀ offset, result = some offset → 0 ≤ offset ∧ 0 ≤ sz ∧ offset + sz ≤ n
  | .pushlstring offset size => 0 ≤ offset ∧ offset + size ≤ n

/-- All accesses so far were safe for a buffer of this size. -/
def ReadBlock.Safe (rb : ReadBlock) (n : Nat) : Prop := ∀ access ∈ rb.log, access.Safe n

/-- The read block stands at the remaining bytes of the buffer. -/
structure At (buffer : Bytes) (rb : ReadBlock) (rest : Bytes) : Prop where
  buffer_eq : rb.buffer = buffer
  suffix : buffer.drop rb.cursor.ptr.toNat = rest
  ptr : 0 ≤ rb.cursor.ptr
  len : rb.cursor.len = rest.length
  sum : rb.cursor.ptr + rb.cursor.len = buffer.length
  safe : rb.Safe buffer.length

/-- How a failing decode ends: only an announced length that is no `int` is unsafe. -/
def Failed (buffer : Bytes) (error : UnpackError) (rb : ReadBlock) : Failure → Prop
  | .outOfFuel => error = .outOfFuel
  | .hugeLength => (∃ message, error = .lua message) ∧ ¬ rb.Safe buffer.length
  | _ => (∃ message, error = .lua message) ∧ rb.Safe buffer.length

/-- The decoder does what the parser does. -/
abbrev Implements {α : Type} (buffer : Bytes) (program : Unpack α) (parser : ByteParser α) :
    Prop :=
  Simulates (At buffer) (Failed buffer) program parser

/-- A failure that is no announced length ends in a Lua error. -/
theorem Failed.of_ne {buffer : Bytes} {error : UnpackError} {rb : ReadBlock} {failure : Failure}
    (failed : Failed buffer error rb failure) (huge : failure ≠ .hugeLength)
    (fuel : failure ≠ .outOfFuel) : (∃ message, error = .lua message) ∧ rb.Safe buffer.length := by
  cases failure with
  | hugeLength => exact absurd rfl huge
  | outOfFuel => exact absurd rfl fuel
  | truncated => exact failed
  | malformed => exact failed
  | badKey => exact failed

variable {buffer rest : Bytes} {rb : ReadBlock}

theorem ReadBlock.Safe.record {n : Nat} (safe : rb.Safe n) {access : Access}
    (new : access.Safe n) : (rb.record access).Safe n := by
  intro old member
  rcases List.mem_append.mp member with before | last
  · exact safe old before
  · rw [List.mem_singleton.mp last]
    exact new

/-- An unsafe access stays in the log. -/
theorem ReadBlock.Safe.of_record {n : Nat} {access : Access} (safe : (rb.record access).Safe n) :
    rb.Safe n ∧ access.Safe n :=
  ⟨fun old member => safe old (List.mem_append_left _ member),
    safe access (List.mem_append_right _ (List.mem_singleton_self _))⟩

theorem At.record (at_ : At buffer rb rest) {access : Access} (new : access.Safe buffer.length) :
    At buffer (rb.record access) rest :=
  { at_ with safe := at_.safe.record new }

theorem At.within (at_ : At buffer rb rest) : rb.cursor.Within buffer.length := by
  refine ⟨at_.ptr, ?_, at_.sum⟩
  rw [at_.len]
  exact Int.natCast_nonneg _

theorem Cursor.Within.move {cursor : Cursor} {n : Nat} (within : cursor.Within n) {sz : Nat}
    (enough : sz ≤ cursor.len) : (cursor.move sz).Within n := by
  obtain ⟨ptr, len, sum⟩ := within
  unfold Cursor.move Cursor.Within
  refine ⟨?_, ?_, ?_⟩ <;> simp only <;> omega

/-- The decoder starts at the whole buffer. -/
theorem At.start (buffer : Bytes) : At buffer (rballInit buffer buffer.length) buffer where
  buffer_eq := rfl
  suffix := rfl
  ptr := le_refl _
  len := rfl
  sum := Int.zero_add _
  safe := nofun

/-- A read that is too long returns null and changes nothing. -/
theorem rbRead_short (at_ : At buffer rb rest) {sz : Nat} (short : ¬ sz ≤ rest.length) :
    ∃ after, rbRead sz rb = .ok none after ∧ At buffer after rest := by
  have few : rb.cursor.len < sz := by
    rw [at_.len]
    omega
  have noRegion : (Access.read rb.cursor rb.cursor sz none).Safe buffer.length :=
    ⟨at_.within, at_.within, le_refl _, nofun⟩
  exact ⟨_, if_pos few, at_.record noRegion⟩

/-- A read within the remaining bytes returns their start and moves past them. -/
theorem rbRead_enough (at_ : At buffer rb rest) {sz : Nat} (enough : sz ≤ rest.length) :
    ∃ after, rbRead sz rb = .ok (some rb.cursor.ptr) after ∧
      At buffer after (rest.drop sz) := by
  have many : ¬ rb.cursor.len < sz := by
    rw [at_.len]
    omega
  obtain ⟨ptr, _, sum⟩ := at_.within
  have moved := at_.within.move (Int.not_lt.mp many)
  have region : (Access.read rb.cursor (rb.cursor.move sz) sz (some rb.cursor.ptr)).Safe
      buffer.length := by
    refine ⟨at_.within, moved, ?_, ?_⟩
    · change rb.cursor.ptr ≤ rb.cursor.ptr + sz
      omega
    · rintro _ ⟨⟩
      exact ⟨ptr, by omega, by omega⟩
  have stands : At buffer { rb with cursor := rb.cursor.move sz } (rest.drop sz) := by
    refine ⟨at_.buffer_eq, ?_, moved.1, ?_, moved.2.2, at_.safe⟩
    · rw [← at_.suffix, List.drop_drop]
      congr 1
      change (rb.cursor.ptr + sz).toNat = rb.cursor.ptr.toNat + sz
      omega
    · have length := at_.len
      change rb.cursor.len - sz = (rest.drop sz).length
      rw [List.length_drop]
      omega
  exact ⟨_, if_neg many, stands.record region⟩

/-- Loading the bytes that a read has returned. -/
theorem load_read {after : ReadBlock} (at_ : At buffer rb rest) (same : after.buffer = buffer)
    {sz : Nat} (enough : sz ≤ rest.length) :
    load rb.cursor.ptr sz after = .ok (rest.take sz) after := by
  have length := at_.len
  have sum := at_.sum
  have inside : 0 ≤ rb.cursor.ptr ∧ rb.cursor.ptr + sz ≤ after.buffer.length := by
    rw [same]
    exact ⟨at_.ptr, by omega⟩
  unfold load
  rw [if_pos inside, same, at_.suffix]

/-- An error at a line of the source is no unsafe access. -/
theorem implements_invalidStream {α : Type} (line : Nat) {failure : Failure}
    (huge : failure ≠ .hugeLength) (fuel : failure ≠ .outOfFuel) :
    Implements buffer (invalidStream line : Unpack α) (throw failure) := by
  intro rb rest at_
  cases failure with
  | hugeLength => exact absurd rfl huge
  | outOfFuel => exact absurd rfl fuel
  | truncated => exact ⟨⟨_, rfl⟩, at_.safe⟩
  | malformed => exact ⟨⟨_, rfl⟩, at_.safe⟩
  | badKey => exact ⟨⟨_, rfl⟩, at_.safe⟩

theorem implements_readOrInvalid (line sz : Nat) :
    Implements buffer (readOrInvalid line sz) (Parser.take .truncated sz) := by
  intro rb rest at_
  unfold readOrInvalid Parser.take
  by_cases enough : sz ≤ rest.length
  · obtain ⟨after, read, moved⟩ := rbRead_enough at_ enough
    rw [bind_program_of_ok read, if_pos enough]
    simp only [load_read at_ moved.buffer_eq enough]
    exact ⟨trivial, moved⟩
  · obtain ⟨after, read, same⟩ := rbRead_short at_ enough
    rw [bind_program_of_ok read, if_neg enough]
    exact ⟨⟨_, rfl⟩, same.safe⟩

theorem implements_readNumber (line sz : Nat) :
    Implements buffer (readNumber line sz) (parseNumber sz) :=
  (implements_readOrInvalid line sz).bind fun _ => .pure _

theorem implements_getReal : Implements buffer getReal parseBits :=
  (implements_readNumber 414 8).bind fun _ => .pure _

theorem implements_getPointer : Implements buffer getPointer parseBits :=
  (implements_readNumber 424 8).bind fun _ => .pure _

theorem implements_getInteger :
    ∀ cookie, Implements buffer (getInteger cookie) (parseInteger cookie)
  | 0 => .pure _
  | 1 => (implements_readNumber 375 1).bind fun _ => .pure _
  | 2 => (implements_readNumber 383 2).bind fun _ => .pure _
  | 4 => (implements_readNumber 391 4).bind fun _ => .pure _
  | 6 => (implements_readNumber 399 8).bind fun _ => .pure _
  | 3 => implements_invalidStream 404 nofun nofun
  | 5 => implements_invalidStream 404 nofun nofun
  | _ + 7 => implements_invalidStream 404 nofun nofun

theorem splitHeader_eq (byte : Nat) : splitHeader byte = (byte % 8, byte / 8) := by
  unfold splitHeader
  rw [Nat.shiftRight_eq_div_pow, Nat.and_two_pow_sub_one_eq_mod byte 3]

theorem implements_getArraySize (cookie : Nat) :
    Implements buffer (getArraySize cookie) (parseArraySize cookie) := by
  unfold getArraySize parseArraySize
  refine .ite (fun _ => ?_) (fun _ => .pure _)
  unfold parseHeader
  simp only [bind_assoc, pure_bind]
  refine (implements_readNumber 447 1).bind fun byte => ?_
  rw [splitHeader_eq]
  refine .ite (fun _ => implements_invalidStream 452 nofun nofun) (fun _ => ?_)
  exact (implements_getInteger _).bind fun _ => .pure _

/-! ## Strings -/

theorem parseNumber_lt {count number : Nat} {input rest : Bytes}
    (parsed : parseNumber count input = .ok (number, rest)) : number < 256 ^ count := by
  unfold parseNumber Parser.take at parsed
  rw [Parser.bind_run] at parsed
  by_cases enough : count ≤ input.length
  · rw [if_pos enough] at parsed
    obtain ⟨rfl, rfl⟩ := Prod.mk.inj (Except.ok.inj parsed)
    have bound := LittleEndian.decode_lt (input.take count)
    rwa [List.length_take, Nat.min_eq_left enough] at bound
  · rw [if_neg enough] at parsed
    exact nomatch parsed

/-- The length argument of `lua_pushlstring` is exact for a length that is no negative
`int`. -/
theorem size_of_natCast {length : Nat} (small : length < 2 ^ 31) :
    (BitVec.ofInt 64 length).toNat = length := by
  rw [BitVec.ofInt_natCast, BitVec.toNat_ofNat]
  omega

theorem pushlstring_small {offset len : Int} {str : Bytes} {size : Nat}
    (exact_ : (BitVec.ofInt 64 len).toNat = size) (small : size < maxString)
    (loaded : load offset size (rb.record (.pushlstring offset size)) =
      .ok str (rb.record (.pushlstring offset size))) :
    pushlstring offset len rb =
      .ok (.scalar (.string str)) (rb.record (.pushlstring offset size)) := by
  have logged : (modify fun rb => rb.record (.pushlstring offset size) : Unpack Unit) rb =
      .ok () (rb.record (.pushlstring offset size)) := rfl
  unfold pushlstring
  rw [exact_, bind_program_of_ok logged, if_neg (Nat.not_le.mpr small),
    bind_program_of_ok loaded]
  rfl

theorem pushlstring_large {offset len : Int} (large : maxString ≤ (BitVec.ofInt 64 len).toNat) :
    pushlstring offset len rb = .error (.lua "memory allocation error: block too big")
      (rb.record (.pushlstring offset (BitVec.ofInt 64 len).toNat)) := by
  have logged : (modify fun rb => rb.record
      (.pushlstring offset (BitVec.ofInt 64 len).toNat) : Unpack Unit) rb =
      .ok () (rb.record (.pushlstring offset (BitVec.ofInt 64 len).toNat)) := rfl
  unfold pushlstring
  rw [bind_program_of_ok logged, if_pos large]
  rfl

/-- A string whose length is no negative `int`. -/
theorem implements_getBuffer (fits : buffer.length < 2 ^ 31) (length : Nat) :
    Implements buffer (getBuffer length) (parseString length) := by
  intro rb rest at_
  obtain ⟨ptr, _, sum⟩ := at_.within
  have left := at_.len
  unfold getBuffer parseString
  by_cases enough : length ≤ rest.length
  · obtain ⟨after, read, moved⟩ := rbRead_enough at_ enough
    have size := size_of_natCast (show length < 2 ^ 31 by omega)
    have small : length < maxString := by
      unfold maxString
      omega
    have given : (Access.pushlstring rb.cursor.ptr length).Safe buffer.length :=
      ⟨ptr, by omega⟩
    have recorded := moved.record given
    have str := load_read at_ recorded.buffer_eq enough
    have parsed : Parser.take .truncated length rest =
        (.ok (rest.take length, rest.drop length) : Except Failure _) := if_pos enough
    rw [bind_program_of_ok read, Parser.bind_run_of_ok parsed]
    simp only [pushlstring_small size small str]
    exact ⟨rfl, recorded⟩
  · obtain ⟨after, read, same⟩ := rbRead_short at_ enough
    have parsed : Parser.take .truncated length rest =
        (.error .truncated : Except Failure (Bytes × Bytes)) := if_neg enough
    rw [bind_program_of_ok read, Parser.bind_run, parsed]
    exact ⟨⟨_, rfl⟩, same.safe⟩

/-- A read of a negative size succeeds and moves the counters backwards. -/
theorem rbRead_negative (at_ : At buffer rb rest) {len : Int} (negative : len < 0) :
    ∃ after, rbRead len rb = .ok (some rb.cursor.ptr) after ∧ ¬ after.Safe buffer.length := by
  have many : ¬ rb.cursor.len < len := by
    rw [at_.len]
    omega
  refine ⟨_, if_neg many, fun safe => ?_⟩
  obtain ⟨_, _, _, region⟩ := safe.of_record.2
  have nonneg := (region _ rfl).2.1
  omega

/-- `lua_pushlstring` refuses the size that a negative length becomes. -/
theorem getBuffer_negative (at_ : At buffer rb rest) {len : Int} (negative : len < 0)
    (large : -2 ^ 31 ≤ len) :
    ∃ message after, getBuffer len rb = .error (.lua message) after ∧
      ¬ after.Safe buffer.length := by
  obtain ⟨after, read, wrong⟩ := rbRead_negative at_ negative
  have refused : maxString ≤ (BitVec.ofInt 64 len).toNat := by
    rw [BitVec.toNat_ofInt]
    unfold maxString
    omega
  have ran : getBuffer len rb = _ :=
    (bind_program_of_ok read).trans (pushlstring_large refused)
  exact ⟨_, _, ran, fun safe => wrong safe.of_record.1⟩

/-- A long string whose length has four bytes. -/
theorem implements_longString (fits : buffer.length < 2 ^ 31) :
    Implements buffer
      (do
        let n ← readNumber 511 4
        getBuffer (toInt n))
      parseLongString := by
  refine .bind_of_returns (implements_readNumber 511 4) (fun _ _ _ => parseNumber_lt)
    fun length bound => ?_
  by_cases huge : 2 ^ 31 ≤ length
  · rw [if_pos huge, toInt_of_huge huge bound]
    intro rb rest at_
    have negative : (length : Int) - 2 ^ 32 < 0 := by omega
    obtain ⟨message, after, ran, logged⟩ := getBuffer_negative at_ negative (by omega)
    rw [ran]
    exact ⟨⟨message, rfl⟩, logged⟩
  · rw [if_neg huge, toInt_natCast (Nat.not_le.mp huge)]
    exact implements_getBuffer fits length

/-! ## Tables and values -/

theorem implements_unpackArray {unpackOne : Unpack Data} {parseOne : ByteParser Data}
    (one : Implements buffer unpackOne parseOne) (count : Nat) (i : Int) (table : NewTable) :
    Implements buffer (unpackArray unpackOne count i table)
      (parseArray parseOne count i table) := by
  induction count generalizing i table with
  | zero => exact .pure table
  | succ count ih => exact one.bind fun value => ih (i + 1) (table.rawseti i value)

/-- The entries up to a nil; an error of `lua_rawset` is a bad key. -/
theorem implements_unpackHash {unpackOne : Unpack Data} {parseOne : ByteParser Data}
    (one : Implements buffer unpackOne parseOne) (fuel : Nat) (table : NewTable) :
    Implements buffer (unpackHash unpackOne fuel table) (parseHash parseOne fuel table) := by
  induction fuel generalizing table with
  | zero => exact .throw fun _ _ _ => rfl
  | succ fuel ih =>
      apply one.bind
      intro key
      cases key with
      | nil => exact .pure _
      | scalar _ | table _ _ =>
          apply one.bind
          intro value
          cases table.rawset _ value with
          | ok table => exact ih table
          | error message => exact .throw fun _ _ at_ => ⟨⟨message, rfl⟩, at_.safe⟩

theorem implements_unpackTable {unpackOne : Unpack Data} {parseOne : ByteParser Data}
    (one : Implements buffer unpackOne parseOne) (fuel cookie : Nat) :
    Implements buffer (unpackTable fuel unpackOne cookie) (parseTable fuel parseOne cookie) := by
  apply (implements_getArraySize cookie).bind
  intro arraySize
  apply (implements_unpackArray one _ 1 .empty).bind
  intro table
  exact implements_unpackHash one fuel table

/-- `push_value`, one case per type. -/
theorem implements_pushValue (fits : buffer.length < 2 ^ 31) {unpackOne : Unpack Data}
    {parseOne : ByteParser Data} (one : Implements buffer unpackOne parseOne) (fuel : Nat) :
    ∀ type cookie, Implements buffer (pushValue fuel unpackOne type cookie)
      (parseValue fuel parseOne type cookie)
  | 0, _ => .pure _
  | 1, _ => .pure _
  | 2, cookie => .ite
      (fun _ => implements_getReal.bind fun _ => .pure _)
      (fun _ => (implements_getInteger cookie).bind fun _ => .pure _)
  | 3, _ => implements_getPointer.bind fun _ => .pure _
  | 4, cookie => implements_getBuffer fits cookie
  | 5, _ => .ite
      (fun _ => (implements_readNumber 500 2).bind fun length => implements_getBuffer fits length)
      (fun _ => .ite (fun _ => implements_longString fits)
        (fun _ => implements_invalidStream 507 nofun nofun))
  | 6, cookie => implements_unpackTable one fuel cookie
  | _ + 7, _ => implements_invalidStream 524 nofun nofun

/-- `unpack_one`, by induction on the fuel. -/
theorem implements_unpackOne (fits : buffer.length < 2 ^ 31) (fuel : Nat) :
    Implements buffer (unpackOne fuel) (parseOne fuel) := by
  induction fuel with
  | zero => exact .throw fun _ _ _ => rfl
  | succ fuel ih =>
      unfold unpackOne parseOne parseHeader
      simp only [bind_assoc, pure_bind]
      apply (implements_readNumber 535 1).bind
      intro byte
      rw [splitHeader_eq]
      exact implements_pushValue fits ih fuel _ _

theorem parseHeader_of_pos (enough : 1 ≤ rest.length) :
    parseHeader rest = .ok ((LittleEndian.decode (rest.take 1) % 8,
      LittleEndian.decode (rest.take 1) / 8), rest.drop 1) := by
  have taken : Parser.take .truncated 1 rest =
      (.ok (rest.take 1, rest.drop 1) : Except Failure _) := if_pos enough
  unfold parseHeader parseNumber
  simp only [bind_assoc, pure_bind]
  rw [Parser.bind_run_of_ok taken]
  rfl

/-- The loop of `luaseri_unpack`, which ends where no byte is left. -/
theorem implements_unpackFrom (fits : buffer.length < 2 ^ 31) (fuel : Nat) :
    Implements buffer (unpackFrom fuel) (parseFrom fuel) := by
  induction fuel with
  | zero => exact .throw fun _ _ _ => rfl
  | succ fuel ih =>
      intro rb rest at_
      unfold unpackFrom parseFrom
      cases rest with
      | nil =>
          obtain ⟨after, read, same⟩ := rbRead_short at_ (show ¬ 1 ≤ ([] : Bytes).length by decide)
          change rbRead 1 rb = _ at read
          rw [bind_program_of_ok read]
          exact ⟨rfl, same⟩
      | cons byte rest =>
          have enough : 1 ≤ (byte :: rest).length := Nat.le_add_left 1 rest.length
          obtain ⟨after, read, moved⟩ := rbRead_enough at_ enough
          change rbRead 1 rb = _ at read
          have first := load_read at_ moved.buffer_eq enough
          unfold Parser.orEnd parseOne
          simp only [bind_assoc]
          rw [bind_program_of_ok read, Parser.bind_run_of_ok (parseHeader_of_pos enough)]
          simp only
          rw [bind_program_of_ok first, splitHeader_eq]
          have values := (implements_pushValue fits (implements_unpackOne fits fuel) fuel
            (LittleEndian.decode [byte] % 8) (LittleEndian.decode [byte] / 8)).bind
              fun value => ih.bind fun rest => .pure (value :: rest)
          exact values after _ moved

/-! ## The whole decode -/

/-- `luaseri_unpack` is given these bytes, as a string or as a buffer and its length. -/
def UnpackArgument.Gives (bytes : Bytes) : UnpackArgument → Prop
  | .none => False
  | .string given => given = bytes
  | .pointer buffer len => buffer = some bytes ∧ len.toInt = bytes.length

/-- A decode that ends, with values or with a Lua error, after safe accesses only. -/
inductive StaysWithin (n : Nat) : EStateM.Result UnpackError ReadBlock (List Data) → Prop
  | values (data : List Data) (rb : ReadBlock) (safe : rb.Safe n) : StaysWithin n (.ok data rb)
  | luaError (message : String) (rb : ReadBlock) (safe : rb.Safe n) :
      StaysWithin n (.error (.lua message) rb)

theorem luaseriUnpack_of_gives {argument : UnpackArgument} {bytes : Bytes}
    (given : argument.Gives bytes) (fits : bytes.length < 2 ^ 31) :
    luaseriUnpack argument = unpackBuffer (some bytes) bytes.length := by
  cases argument with
  | none => exact given.elim
  | string str =>
      obtain rfl : str = bytes := given
      change unpackBuffer (some str) (toInt str.length) = _
      rw [toInt_natCast fits]
  | pointer buffer len =>
      obtain ⟨rfl, length⟩ := given
      change unpackBuffer (some bytes) (toInt len.toInt) = _
      rw [length, toInt_natCast fits]

/-- A parsed buffer is decoded to the same values, by safe accesses. -/
theorem unpackBuffer_of_parsed {bytes rest : Bytes} {data : List Data}
    (fits : bytes.length < 2 ^ 31)
    (parsed : parseFrom (bytes.length + 1) bytes = .ok (data, rest)) :
    ∃ rb, unpackBuffer (some bytes) bytes.length = .ok data rb ∧ rb.Safe bytes.length := by
  unfold unpackBuffer
  by_cases empty : bytes = []
  · subst empty
    cases parsed
    exact ⟨_, rfl, nofun⟩
  · have positive := List.length_pos_iff.mpr empty
    rw [if_neg (by omega)]
    obtain ⟨after, ran, at_⟩ :=
      (implements_unpackFrom fits (bytes.length + 1)).ok (At.start bytes) parsed
    exact ⟨after, ran, at_.safe⟩

/-- A buffer that cannot be parsed ends the decode in the corresponding way. -/
theorem unpackBuffer_of_failed {bytes : Bytes} {failure : Failure} (fits : bytes.length < 2 ^ 31)
    (parsed : parseFrom (bytes.length + 1) bytes = .error failure) :
    ∃ error rb, unpackBuffer (some bytes) bytes.length = .error error rb ∧
      Failed bytes error rb failure := by
  unfold unpackBuffer
  have present : bytes ≠ [] := by
    rintro rfl
    cases parsed
  have positive := List.length_pos_iff.mpr present
  rw [if_neg (by omega)]
  exact (implements_unpackFrom fits (bytes.length + 1)).error (At.start bytes) parsed

/-- **The decoder stays in its buffer exactly when the stream announces no string of
`2 ^ 31` bytes or more.** -/
theorem within_iff_no_hugeLength (argument : UnpackArgument) (bytes : Bytes)
    (given : argument.Gives bytes) (fits : bytes.length < 2 ^ 31) :
    StaysWithin bytes.length (luaseriUnpack argument) ↔ parse bytes ≠ .error .hugeLength := by
  rw [luaseriUnpack_of_gives given fits]
  have enough := parse_ne_outOfFuel bytes
  unfold parse at enough ⊢
  cases parsed : parseFrom (bytes.length + 1) bytes with
  | ok result =>
      obtain ⟨rb, ran, safe⟩ := unpackBuffer_of_parsed fits parsed
      rw [ran]
      exact ⟨fun _ => nofun, fun _ => .values _ _ safe⟩
  | error failure =>
      obtain ⟨error, rb, ran, failed⟩ := unpackBuffer_of_failed fits parsed
      rw [parsed] at enough
      rw [ran]
      by_cases huge : failure = .hugeLength
      · subst huge
        refine ⟨fun within => ?_, fun fine => absurd rfl fine⟩
        cases within with
        | luaError message rb safe => exact absurd safe failed.2
      · have differs : failure ≠ .outOfFuel := fun same => enough (congrArg _ same)
        obtain ⟨⟨message, rfl⟩, safe⟩ := failed.of_ne huge differs
        exact ⟨fun _ same => huge (Except.error.inj same), fun _ => .luaError _ _ safe⟩

/-- A table `{ [1] = true, ["a"] = 5 }` is decoded within its bytes. -/
theorem within_iff_no_hugeLength_table :
    StaysWithin 7 (luaseriUnpack (.string [0x0e, 0x09, 0x0c, 0x61, 0x0a, 0x05, 0x00])) := by
  have parsed : parse [0x0e, 0x09, 0x0c, 0x61, 0x0a, 0x05, 0x00] =
      .ok [.table [(.string [0x61], .scalar (.integer 5)), (.integer 1, .scalar (.boolean true))]
        []] := rfl
  refine (within_iff_no_hugeLength (.string _) [0x0e, 0x09, 0x0c, 0x61, 0x0a, 0x05, 0x00] rfl
    ?_).mpr ?_
  · simp
  · rw [parsed]
    nofun

/-- A long string of length `0xffffffff`: the counter moves from the end of the buffer one
byte back, and only the length that `lua_pushlstring` is given ends the decode. -/
theorem hugeLength_moves_back :
    ∃ rb, luaseriUnpack (.string [0x25, 0xff, 0xff, 0xff, 0xff]) =
        .error (.lua "memory allocation error: block too big") rb ∧
      Access.read ⟨5, 0⟩ ⟨4, 1⟩ (-1) (some 5) ∈ rb.log ∧
      ¬ StaysWithin 5 (luaseriUnpack (.string [0x25, 0xff, 0xff, 0xff, 0xff])) := by
  obtain ⟨rb, ran, back⟩ : ∃ rb, luaseriUnpack (.string [0x25, 0xff, 0xff, 0xff, 0xff]) =
      .error (.lua "memory allocation error: block too big") rb ∧
      Access.read ⟨5, 0⟩ ⟨4, 1⟩ (-1) (some 5) ∈ rb.log :=
    ⟨_, rfl, .tail _ (.tail _ (.head _))⟩
  refine ⟨rb, ran, back, fun within => ?_⟩
  rw [ran] at within
  cases within with
  | luaError message rb safe =>
      have forward : (5 : Int) ≤ 4 := (safe _ back).2.2.1
      omega

end EasyLua.Seri
