import EasyLua.Seri.PackFormat

/-!
# The parser inverts the encoding

Parsing the encoding of a value, followed by anything, returns a value that it denotes
and leaves what follows. Tables are rebuilt field by field: every raw set makes the new
table agree with the packed one at its key, and the keys that are never set are those
whose field is nil.
-/

namespace EasyLua.Seri.Format

/-! ## Numbers and headers -/

theorem parseNumber_encode {count number : Nat} (small : number < 256 ^ count) (rest : Bytes) :
    parseNumber count (LittleEndian.encode count number ++ rest) = .ok (number, rest) := by
  have taken := Parser.take_append_of_length Failure.truncated rest
    (LittleEndian.length_encode count number)
  unfold parseNumber
  rw [Parser.bind_run_of_ok taken, LittleEndian.decode_encode_of_lt small]
  rfl

theorem parseHeader_header {type cookie : Nat} (small : type < 8) (fits : cookie < 32)
    (rest : Bytes) : parseHeader (header type cookie :: rest) = .ok ((type, cookie), rest) := by
  have byte : header type cookie :: rest = LittleEndian.encode 1 (type + 8 * cookie) ++ rest := rfl
  have number := parseNumber_encode (show type + 8 * cookie < 256 ^ 1 by omega) rest
  unfold parseHeader
  rw [byte, Parser.bind_run_of_ok number, Nat.add_mul_mod_self_left, Nat.mod_eq_of_lt small,
    Nat.add_mul_div_left _ _ (by omega), Nat.div_eq_of_lt small, Nat.zero_add]
  rfl

theorem parseBits_encode (bits : BitVec 64) (rest : Bytes) :
    parseBits (LittleEndian.encode 8 bits.toNat ++ rest) = .ok (bits, rest) := by
  unfold parseBits
  rw [Parser.bind_run_of_ok (parseNumber_encode bits.isLt rest), BitVec.ofNat_toNat,
    BitVec.setWidth_eq]
  rfl

/-- Each of the five forms of an integer has a cookie by which it is parsed. -/
theorem parseInteger_encodeInteger (v : BitVec 64) :
    ∃ cookie body, encodeInteger v = header 2 cookie :: body ∧ cookie < 32 ∧ cookie ≠ 8 ∧
      ∀ rest, parseInteger cookie (body ++ rest) = .ok (v, rest) := by
  have whole : BitVec.ofNat 64 v.toNat = v := by
    rw [BitVec.ofNat_toNat, BitVec.setWidth_eq]
  have sign := BitVec.toInt_eq_toNat_cond v
  have form {count cookie : Nat} (small : v.toNat < 256 ^ count)
      (reads : parseInteger cookie = do
        let n ← parseNumber count
        return BitVec.ofNat 64 n) (rest : Bytes) :
      parseInteger cookie (LittleEndian.encode count v.toNat ++ rest) = .ok (v, rest) := by
    rw [reads, Parser.bind_run_of_ok (parseNumber_encode small rest), whole]
    rfl
  unfold encodeInteger
  by_cases zero : v.toInt = 0
  · rw [if_pos zero]
    have isZero : v = 0 := BitVec.toInt_inj.mp zero
    exact ⟨0, [], rfl, by omega, by omega, fun rest => by rw [isZero]; rfl⟩
  rw [if_neg zero]
  by_cases wide : v.toInt < -2 ^ 31 ∨ 2 ^ 31 ≤ v.toInt
  · rw [if_pos wide]
    exact ⟨6, _, rfl, by omega, by omega, form v.isLt rfl⟩
  rw [if_neg wide]
  by_cases byte : 0 < v.toInt ∧ v.toInt < 2 ^ 8
  · rw [if_pos byte]
    have small : v.toNat < 256 ^ 1 := by split at sign <;> omega
    exact ⟨1, _, rfl, by omega, by omega, form small rfl⟩
  rw [if_neg byte]
  by_cases word : 0 < v.toInt ∧ v.toInt < 2 ^ 16
  · rw [if_pos word]
    have small : v.toNat < 256 ^ 2 := by split at sign <;> omega
    exact ⟨2, _, rfl, by omega, by omega, form small rfl⟩
  · rw [if_neg word]
    refine ⟨4, _, rfl, by omega, by omega, fun rest => ?_⟩
    have low : BitVec.ofNat 32 (v.toNat % 256 ^ 4) = v.setWidth 32 := by
      apply BitVec.toNat_inj.mp
      rw [BitVec.toNat_ofNat, BitVec.toNat_setWidth]
      omega
    have number := parseNumber_encode (Nat.mod_lt v.toNat (show 256 ^ 4 > 0 by omega)) rest
    rw [LittleEndian.encode_mod] at number
    have reads : parseInteger 4 = do
        let n ← parseNumber 4
        return (BitVec.ofNat 32 n).signExtend 64 := rfl
    rw [reads, Parser.bind_run_of_ok number, low, ← (eq_signExtend_iff v).mpr (by omega)]
    rfl

theorem parseString_append (str rest : Bytes) :
    parseString str.length (str ++ rest) = .ok (.scalar (.string str), rest) := by
  unfold parseString
  rw [Parser.bind_run_of_ok (Parser.take_append Failure.truncated str rest)]
  rfl

/-! ## Values -/

variable {heap : Heap} {levels fuel : Nat} {value : LuaValue} {rest : Bytes}

/-- After the header the value is parsed by its type and cookie. -/
theorem parseOne_header {type cookie : Nat} (small : type < 8) (fits : cookie < 32) :
    parseOne (fuel + 1) (header type cookie :: rest) =
      parseValue fuel (parseOne fuel) type cookie rest := by
  change (parseHeader >>= fun pair => parseValue fuel (parseOne fuel) pair.1 pair.2) _ = _
  rw [Parser.bind_run_of_ok (parseHeader_header small fits rest)]

theorem parseOne_number (v : BitVec 64) :
    parseOne (fuel + 1) (encodeInteger v ++ rest) = .ok (.scalar (.integer v), rest) := by
  obtain ⟨cookie, body, form, fits, notReal, reads⟩ := parseInteger_encodeInteger v
  have value : parseValue fuel (parseOne fuel) 2 cookie = do
      let value ← parseInteger cookie
      return .scalar (.integer value) := if_neg notReal
  rw [form, List.cons_append, parseOne_header (by omega) fits, value,
    Parser.bind_run_of_ok (reads rest)]
  rfl

/-- A string in one of its three forms. -/
theorem parseOne_string {str : Bytes} (small : str.length < 2 ^ 31) :
    parseOne (fuel + 1) (encodeString str ++ rest) = .ok (.scalar (.string str), rest) := by
  unfold encodeString
  by_cases short : str.length < 32
  · rw [if_pos short, List.cons_append, parseOne_header (by omega) short]
    exact parseString_append str rest
  rw [if_neg short]
  by_cases word : str.length < 2 ^ 16
  · have length := parseNumber_encode (show str.length < 256 ^ 2 by omega) (str ++ rest)
    rw [if_pos word, List.cons_append, List.cons_append, List.append_assoc,
      parseOne_header (by omega) (by omega)]
    change (parseNumber 2 >>= parseString) _ = _
    rw [Parser.bind_run_of_ok length]
    exact parseString_append str rest
  · have length := parseNumber_encode (show str.length < 256 ^ 4 by omega) (str ++ rest)
    rw [if_neg word, List.cons_append, List.cons_append, List.append_assoc,
      parseOne_header (by omega) (by omega)]
    change parseLongString _ = _
    unfold parseLongString
    rw [Parser.bind_run_of_ok length, if_neg (Nat.not_le.mpr small)]
    exact parseString_append str rest

/-- The bits of a double or of a pointer after their header. -/
theorem parseOne_bits {type cookie : Nat} (small : type < 8) (fits : cookie < 32)
    {wrap : BitVec 64 → Scalar}
    (reads : parseValue fuel (parseOne fuel) type cookie = do
      let bits ← parseBits
      return .scalar (wrap bits)) (bits : BitVec 64) :
    parseOne (fuel + 1) (header type cookie :: LittleEndian.encode 8 bits.toNat ++ rest) =
      .ok (.scalar (wrap bits), rest) := by
  rw [List.cons_append, parseOne_header small fits, reads,
    Parser.bind_run_of_ok (parseBits_encode bits rest)]
  rfl

theorem parseOne_scalar : ∀ scalar, (encodeScalar scalar).length < 2 ^ 31 →
    parseOne (fuel + 1) (encodeScalar scalar ++ rest) = .ok (.scalar scalar, rest)
  | .boolean true, _ => parseOne_header (by omega) (by decide)
  | .boolean false, _ => parseOne_header (by omega) (by decide)
  | .integer value, _ => parseOne_number value
  | .number bits, _ => parseOne_bits (by omega) (by omega) rfl bits
  | .lightUserdata pointer, _ => parseOne_bits (by omega) (by omega) rfl pointer
  | .string str, small =>
      parseOne_string (Nat.lt_of_le_of_lt (length_encodeString str) small)

/-- A table header announces its array size. -/
theorem parseArraySize_encode {arraySize : Nat} (small : arraySize < 2 ^ 31) :
    ∃ cookie body, encodeTableHeader arraySize = header 6 cookie :: body ∧ cookie < 32 ∧
      ∀ rest, parseArraySize cookie (body ++ rest) = .ok ((arraySize : Int), rest) := by
  unfold encodeTableHeader
  by_cases short : arraySize < 31
  · rw [if_pos short]
    exact ⟨arraySize, [], rfl, by omega, fun rest => by
      unfold parseArraySize
      rw [if_neg (by omega)]
      rfl⟩
  rw [if_neg short]
  refine ⟨31, _, rfl, by omega, fun rest => ?_⟩
  obtain ⟨cookie, body, form, fits, notReal, reads⟩ :=
    parseInteger_encodeInteger (BitVec.ofNat 64 arraySize)
  have header := parseHeader_header (show 2 < 8 by omega) fits (body ++ rest)
  have same : ((BitVec.ofNat 64 arraySize).setWidth 32).toInt = arraySize := by
    rw [BitVec.setWidth_ofNat_of_le (by omega), BitVec.toInt_ofNat']
    exact Int.bmod_eq_of_le (by omega) (by omega)
  unfold parseArraySize
  rw [if_pos rfl, form, List.cons_append, Parser.bind_run_of_ok header]
  simp only
  rw [if_neg (by simpa using notReal), Parser.bind_run_of_ok (reads rest), same]
  rfl

end EasyLua.Seri.Format
