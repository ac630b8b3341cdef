import EasyLua.Seri.Bounds

/-!
# The declared array count

A table header with the extended cookie declares its array fields by an encoded integer.
`unpack_table` narrows that integer to an `int` before its first loop and refuses no value
of it. So the count that is decoded is the declared one exactly when the declared one is
not negative and fits an `int`.
-/

namespace EasyLua.Seri

open Format

/-- The bytes of an integer, in each of the widths that `get_integer` accepts. A byte and a
word are unsigned, the wider ones are signed. -/
inductive Encoded : Bytes → Int → Prop
  | zero : Encoded [header 2 0] 0
  | byte (n : BitVec 8) : Encoded (header 2 1 :: LittleEndian.encode 1 n.toNat) n.toNat
  | word (n : BitVec 16) : Encoded (header 2 2 :: LittleEndian.encode 2 n.toNat) n.toNat
  | dword (n : BitVec 32) : Encoded (header 2 4 :: LittleEndian.encode 4 n.toNat) n.toInt
  | qword (n : BitVec 64) : Encoded (header 2 6 :: LittleEndian.encode 8 n.toNat) n.toInt

/-- These bytes come next in the buffer, and the counter covers them. -/
def ReadBlock.Before (rb : ReadBlock) (bytes : Bytes) : Prop :=
  ∃ front tail, rb.buffer = front ++ (bytes ++ tail) ∧ rb.cursor.ptr = front.length ∧
    bytes.length ≤ rb.cursor.len

/-! ## Reading the count -/

section Reading

variable {rb : ReadBlock} {bytes rest : Bytes}

/-- Bytes that come next are read as a number. -/
theorem readNumber_of_before (line : Nat) {sz : Nat} (size : bytes.length = sz)
    (before : rb.Before (bytes ++ rest)) :
    ∃ after, readNumber line sz rb = .ok (LittleEndian.decode bytes) after ∧
      after.Before rest := by
  obtain ⟨front, tail, buffer, ptr, len⟩ := before
  rw [List.append_assoc] at buffer
  rw [List.length_append] at len
  subst size
  obtain ⟨moved, read, kept, cursor⟩ : ∃ moved, rbRead bytes.length rb =
      .ok (some rb.cursor.ptr) moved ∧ moved.buffer = rb.buffer ∧
        moved.cursor = rb.cursor.move bytes.length :=
    ⟨_, if_neg (by omega), rfl, rfl⟩
  have inside : 0 ≤ rb.cursor.ptr ∧ rb.cursor.ptr + bytes.length ≤ moved.buffer.length := by
    rw [kept, buffer, ptr]
    simp only [List.length_append]
    omega
  have region : (moved.buffer.drop rb.cursor.ptr.toNat).take bytes.length = bytes := by
    rw [kept, buffer, ptr, Int.toNat_natCast, List.drop_left, List.take_left]
  have loaded : load rb.cursor.ptr bytes.length moved = .ok bytes moved := by
    unfold load
    rw [if_pos inside, region]
  refine ⟨moved, ?_, front ++ bytes, tail, ?_, ?_, ?_⟩
  · unfold readNumber readOrInvalid
    simp only [bind_assoc]
    rw [bind_program_of_ok read]
    exact bind_program_of_ok loaded
  · rw [kept, buffer, List.append_assoc]
  · rw [cursor, List.length_append, Int.natCast_add, ← ptr]
    rfl
  · rw [cursor]
    change (rest.length : Int) ≤ rb.cursor.len - bytes.length
    omega

/-- A number that was encoded is read back. -/
theorem readNumber_encode (line : Nat) {sz number : Nat} (small : number < 256 ^ sz)
    (before : rb.Before (LittleEndian.encode sz number ++ rest)) :
    ∃ after, readNumber line sz rb = .ok number after ∧ after.Before rest := by
  have read := readNumber_of_before line (LittleEndian.length_encode sz number) before
  rwa [LittleEndian.decode_encode_of_lt small] at read

/-- `get_integer` on the bytes behind the header of an integer. -/
theorem getInteger_encoded {c : Int} (encoded : Encoded bytes c) :
    ∃ cookie body, bytes = header 2 cookie :: body ∧ cookie < 8 ∧
      ∀ {rb : ReadBlock} {rest : Bytes}, rb.Before (body ++ rest) →
        ∃ value after, getInteger cookie rb = .ok value after ∧ value.toInt = c ∧
          after.Before rest := by
  cases encoded with
  | zero => exact ⟨0, [], rfl, by omega, fun before => ⟨0, _, rfl, rfl, before⟩⟩
  | byte n =>
      refine ⟨1, _, rfl, by omega, fun before => ?_⟩
      obtain ⟨after, read, moved⟩ := readNumber_encode 375 n.isLt before
      refine ⟨_, after, bind_program_of_ok read, ?_, moved⟩
      have small := n.isLt
      rw [BitVec.toInt_ofNat', Int.bmod_eq_of_le (by omega) (by omega)]
  | word n =>
      refine ⟨2, _, rfl, by omega, fun before => ?_⟩
      obtain ⟨after, read, moved⟩ := readNumber_encode 383 n.isLt before
      refine ⟨_, after, bind_program_of_ok read, ?_, moved⟩
      have small := n.isLt
      rw [BitVec.toInt_ofNat', Int.bmod_eq_of_le (by omega) (by omega)]
  | dword n =>
      refine ⟨4, _, rfl, by omega, fun before => ?_⟩
      obtain ⟨after, read, moved⟩ := readNumber_encode 391 n.isLt before
      refine ⟨_, after, bind_program_of_ok read, ?_, moved⟩
      rw [BitVec.ofNat_toNat, BitVec.setWidth_eq, BitVec.toInt_signExtend_of_le (by omega)]
  | qword n =>
      refine ⟨6, _, rfl, by omega, fun before => ?_⟩
      obtain ⟨after, read, moved⟩ := readNumber_encode 399 n.isLt before
      refine ⟨_, after, bind_program_of_ok read, ?_, moved⟩
      rw [BitVec.ofNat_toNat, BitVec.setWidth_eq]

/-- The conversion of a Lua integer to an `int`. -/
theorem toInt_setWidth (v : BitVec 64) : (v.setWidth 32).toInt = toInt v.toInt := by
  unfold toInt
  rw [BitVec.toInt_setWidth, BitVec.toInt_ofInt, BitVec.toInt_eq_toNat_bmod,
    Int.bmod_bmod_of_dvd (by decide)]

/-- **The array size of an extended header is the declared count as an `int`.** -/
theorem getArraySize_encoded {c : Int} (encoded : Encoded bytes c)
    (before : rb.Before (bytes ++ rest)) :
    ∃ after, getArraySize 31 rb = .ok (toInt c) after ∧ after.Before rest := by
  obtain ⟨cookie, body, rfl, small, reads⟩ := getInteger_encoded encoded
  have first : rb.Before ([header 2 cookie] ++ (body ++ rest)) := before
  have one : [header 2 cookie].length = 1 := rfl
  obtain ⟨middle, read, behind⟩ := readNumber_of_before 447 one first
  obtain ⟨value, after, number, rfl, moved⟩ := reads behind
  have byte : LittleEndian.decode [header 2 cookie] = 2 + 8 * cookie := by
    unfold header
    rw [LittleEndian.decode_cons, UInt8.toNat_ofNat']
    change (2 + 8 * cookie) % 2 ^ 8 + 256 * 0 = _
    omega
  have split : splitHeader (LittleEndian.decode [header 2 cookie]) = (2, cookie) := by
    rw [splitHeader_eq, byte]
    congr 1 <;> omega
  have accepted : ¬ ((2 : Nat) ≠ 2 ∨ cookie = 8) := by omega
  refine ⟨after, ?_, moved⟩
  have extended : 31 = (MAX_COOKIE - 1).toNat := rfl
  unfold getArraySize
  rw [if_pos extended, bind_program_of_ok read, split]
  simp only
  rw [if_neg accepted, bind_program_of_ok number, ← toInt_setWidth]
  rfl

end Reading

/-- The number of rounds is the declared count exactly when that is a count. -/
theorem rounds_eq_iff (c : Int) : ((toInt c).toNat : Int) = c ↔ 0 ≤ c ∧ c < 2 ^ 31 := by
  have high : toInt c < 2 ^ 31 := (BitVec.ofInt 32 c).toInt_lt
  constructor
  · intro same
    omega
  · rintro ⟨nonneg, small⟩
    obtain ⟨n, rfl⟩ := Int.eq_ofNat_of_zero_le nonneg
    rw [toInt_natCast (by omega)]
    rfl

/-! ## The first loop -/

/-- A sequence of successful calls of the reader. -/
inductive ReadsInTurn (read : Unpack Data) : ReadBlock → List Data → ReadBlock → Prop
  | nil (rb : ReadBlock) : ReadsInTurn read rb [] rb
  | cons {rb middle after : ReadBlock} {value : Data} {values : List Data}
      (head : read rb = .ok value middle) (tail : ReadsInTurn read middle values after) :
      ReadsInTurn read rb (value :: values) after

/-- Fields under consecutive integer keys. -/
def elements : Int → List Data → List (Scalar × Data)
  | _, [] => []
  | i, value :: values => (.integer (BitVec.ofInt 64 i), value) :: elements (i + 1) values

@[simp] theorem length_elements (i : Int) (values : List Data) :
    (elements i values).length = values.length := by
  induction values generalizing i with
  | nil => rfl
  | cons value values ih => rw [elements, List.length_cons, List.length_cons, ih]

/-- A table whose raw sets so far are these values under 1, 2 and so on. -/
def NewTable.ofElements (values : List Data) : NewTable where
  fields := (elements 1 values).reverse
  byTable := []

/-- `unpack_table` up to its second loop. -/
def arrayPart (unpackOne : Unpack Data) (arraySize : Nat) : Unpack NewTable := do
  let arraySize ← getArraySize arraySize
  unpackArray unpackOne arraySize.toNat 1 .empty

section Loop

variable {one : Unpack Data} {fuel cookie count : Nat} {rb after : ReadBlock} {data : Data}

theorem unpackTable_eq (fuel : Nat) (one : Unpack Data) (cookie : Nat) :
    unpackTable fuel one cookie = arrayPart one cookie >>= unpackHash one fuel := by
  unfold unpackTable arrayPart
  rw [bind_assoc]

/-- Each round of the first loop reads one value and stores it under the next index. -/
theorem unpackArray_reads (i : Int) {table filled : NewTable}
    (returned : unpackArray one count i table rb = .ok filled after) :
    ∃ values, ReadsInTurn one rb values after ∧ values.length = count ∧
      filled = { table with fields := (elements i values).reverse ++ table.fields } := by
  induction count generalizing i table rb with
  | zero =>
      cases returned
      exact ⟨[], .nil _, rfl, rfl⟩
  | succ count ih =>
      obtain ⟨value, middle, head, later⟩ := of_bind_program_ok returned
      obtain ⟨values, tail, length, rfl⟩ := ih (i + 1) later
      refine ⟨value :: values, .cons head tail, congrArg (· + 1) length, ?_⟩
      rw [elements, List.reverse_cons, List.append_assoc]
      rfl

/-- How `unpack_table` comes from its header to its result: the array size is read, then
these values one after the other, which are stored under 1, 2 and so on, and then the keys
and values behind them. -/
def ArrayDecode (one : Unpack Data) (fuel cookie : Nat) (rb after : ReadBlock) (data : Data)
    (values : List Data) : Prop :=
  ∃ size start middle, getArraySize cookie rb = .ok size start ∧
    ReadsInTurn one start values middle ∧
      arrayPart one cookie rb = .ok (.ofElements values) middle ∧
      unpackHash one fuel (.ofElements values) middle = .ok data after

/-- A decode reads the values of one list in its first loop. -/
theorem ArrayDecode.unique {values others : List Data}
    (first : ArrayDecode one fuel cookie rb after data values)
    (second : ArrayDecode one fuel cookie rb after data others) :
    values.length = others.length := by
  obtain ⟨_, _, _, _, _, array, _⟩ := first
  obtain ⟨_, _, _, _, _, array', _⟩ := second
  rw [array] at array'
  have fields : (elements 1 values).reverse = (elements 1 others).reverse := by
    injection array' with table
    injection table
  have lengths := congrArg List.length fields
  simpa using lengths

/-- A decode that succeeds reads as many values as the array size says. -/
theorem arrayDecode_of_returned {size : Int} {start : ReadBlock}
    (header : getArraySize cookie rb = .ok size start)
    (returned : unpackTable fuel one cookie rb = .ok data after) :
    ∃ values, ArrayDecode one fuel cookie rb after data values ∧ values.length = size.toNat := by
  rw [unpackTable_eq] at returned
  obtain ⟨table, middle, array, hash⟩ := of_bind_program_ok returned
  have loop := array
  unfold arrayPart at loop
  rw [bind_program_of_ok header] at loop
  obtain ⟨values, reads, length, filled⟩ := unpackArray_reads 1 loop
  have stored : table = .ofElements values := by
    rw [filled, NewTable.ofElements, NewTable.empty, List.append_nil]
  subst stored
  exact ⟨values, ⟨size, start, middle, header, reads, array, hash⟩, length⟩

end Loop

/-! ## The declared count -/

/-- Exactly `c` values are decoded, as the elements from 1 to `c`, before the keys and
values. -/
def DecodesCount (one : Unpack Data) (fuel : Nat) (c : Int) (rb after : ReadBlock) (data : Data) :
    Prop :=
  ∃ values, ArrayDecode one fuel 31 rb after data values ∧ (values.length : Int) = c

/-- **A table that `unpack_table` accepts has as many array fields as its header declares
exactly when the declared count is not negative and fits an `int`.** -/
theorem decodesCount_iff {fuel : Nat} {bytes : Bytes} {c : Int} {rb after : ReadBlock}
    {data : Data} (encoded : Encoded bytes c) (before : rb.Before bytes)
    (returned : unpackTable fuel (unpackOne fuel) 31 rb = .ok data after) :
    DecodesCount (unpackOne fuel) fuel c rb after data ↔ 0 ≤ c ∧ c < 2 ^ 31 := by
  rw [← List.append_nil bytes] at before
  obtain ⟨start, header, _⟩ := getArraySize_encoded encoded before
  obtain ⟨values, decode, length⟩ := arrayDecode_of_returned header returned
  rw [← rounds_eq_iff, ← length]
  constructor
  · rintro ⟨others, again, count⟩
    rw [decode.unique again, count]
  · intro count
    exact ⟨values, decode, count⟩

/-- A declared count of two in four bytes, the elements true and 5, and no key. -/
def twoElements : Bytes := [0x22, 0x02, 0x00, 0x00, 0x00, 0x09, 0x0a, 0x05, 0x00]

theorem decodesCount_iff_two :
    ∃ after data, unpackTable 2 (unpackOne 2) 31 (rballInit twoElements 9) = .ok data after ∧
      data = .table [(.integer 2, .scalar (.integer 5)), (.integer 1, .scalar (.boolean true))] [] ∧
      DecodesCount (unpackOne 2) 2 2 (rballInit twoElements 9) after data := by
  have count : header 2 4 :: LittleEndian.encode 4 (2 : BitVec 32).toNat =
      [0x22, 0x02, 0x00, 0x00, 0x00] := by decide
  have before : (rballInit twoElements 9).Before
      (header 2 4 :: LittleEndian.encode 4 (2 : BitVec 32).toNat) := by
    rw [count]
    exact ⟨[], [0x09, 0x0a, 0x05, 0x00], rfl, rfl, by decide⟩
  exact ⟨_, _, rfl, rfl, (decodesCount_iff (.dword 2) before rfl).mpr ⟨by decide, by decide⟩⟩

/-- A declared count of -1 in four bytes, with a nil behind it: the table is accepted. So is
the message that is this table. -/
theorem negative_count_accepted :
    ∃ after, Encoded [0x22, 0xff, 0xff, 0xff, 0xff] (-1) ∧
      (rballInit [0x22, 0xff, 0xff, 0xff, 0xff, 0x00] 6).Before [0x22, 0xff, 0xff, 0xff, 0xff] ∧
      unpackTable 2 (unpackOne 2) 31 (rballInit [0x22, 0xff, 0xff, 0xff, 0xff, 0x00] 6) =
        .ok (.table [] []) after ∧
      ¬ DecodesCount (unpackOne 2) 2 (-1) (rballInit [0x22, 0xff, 0xff, 0xff, 0xff, 0x00] 6)
        after (.table [] []) ∧
      ∃ rb, luaseriUnpack (.string [0xfe, 0x22, 0xff, 0xff, 0xff, 0xff, 0x00]) =
        .ok [.table [] []] rb := by
  have bytes : header 2 4 :: LittleEndian.encode 4 (-1 : BitVec 32).toNat =
      [0x22, 0xff, 0xff, 0xff, 0xff] := by decide
  refine ⟨_, bytes ▸ Encoded.dword (-1), ⟨[], [0x00], rfl, rfl, by decide⟩, rfl, ?_, _, rfl⟩
  rintro ⟨values, _, count⟩
  omega

/-- A count that is no positive `int` declares no element, whatever it says: with a nil
behind it the table is accepted and empty. -/
theorem unpackTable_of_nonpositive (fuel : Nat) {bytes : Bytes} {c : Int} {rb : ReadBlock}
    (encoded : Encoded bytes c) (narrow : toInt c ≤ 0) (before : rb.Before (bytes ++ [0])) :
    ∃ after, unpackTable (fuel + 1) (unpackOne (fuel + 1)) 31 rb = .ok (.table [] []) after := by
  obtain ⟨start, header, behind⟩ := getArraySize_encoded encoded before
  have one : ([0] : Bytes).length = 1 := rfl
  have last : start.Before ([0] ++ []) := behind
  obtain ⟨after, read, _⟩ := readNumber_of_before 535 one last
  have closing : unpackOne (fuel + 1) start = .ok .nil after := bind_program_of_ok read
  have array : arrayPart (unpackOne (fuel + 1)) 31 rb = .ok .empty start := by
    unfold arrayPart
    rw [bind_program_of_ok header, Int.toNat_of_nonpos narrow]
    rfl
  refine ⟨after, ?_⟩
  rw [unpackTable_eq, bind_program_of_ok array]
  exact bind_program_of_ok closing

end EasyLua.Seri
