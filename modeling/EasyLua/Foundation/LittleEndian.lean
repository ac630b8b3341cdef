import Mathlib.Data.Nat.Digits.Lemmas

/-!
# Little-endian bytes

A number as a fixed count of bytes, least significant first, and the number that a
list of bytes spells.
-/

namespace LittleEndian

/-- The `count` lowest bytes of a number. -/
def encode : Nat → Nat → List UInt8
  | 0, _ => []
  | count + 1, number => UInt8.ofNat number :: encode count (number / 256)

/-- The number that bytes spell. -/
def decode (bytes : List UInt8) : Nat := Nat.ofDigits 256 (bytes.map UInt8.toNat)

@[simp] theorem length_encode (count number : Nat) : (encode count number).length = count := by
  induction count generalizing number with
  | zero => rfl
  | succ count ih => rw [encode, List.length_cons, ih]

theorem decode_cons (byte : UInt8) (bytes : List UInt8) :
    decode (byte :: bytes) = byte.toNat + 256 * decode bytes := by
  unfold decode
  rw [List.map_cons, Nat.ofDigits_cons]

/-- The bytes of a number spell it up to the places they have. -/
theorem decode_encode (count number : Nat) :
    decode (encode count number) = number % 256 ^ count := by
  induction count generalizing number with
  | zero => rw [Nat.pow_zero, Nat.mod_one]; rfl
  | succ count ih =>
      have byte : (UInt8.ofNat number).toNat = number % 256 := UInt8.toNat_ofNat
      rw [encode, decode_cons, ih, byte, Nat.pow_succ, Nat.mul_comm (256 ^ count) 256,
        Nat.mod_mul]

theorem decode_encode_of_lt {count number : Nat} (small : number < 256 ^ count) :
    decode (encode count number) = number := by
  rw [decode_encode, Nat.mod_eq_of_lt small]

/-- Only the places that are written matter. -/
theorem encode_mod (count number : Nat) :
    encode count (number % 256 ^ count) = encode count number := by
  induction count generalizing number with
  | zero => rfl
  | succ count ih =>
      have byte : UInt8.ofNat (number % 256 ^ (count + 1)) = UInt8.ofNat number := by
        apply UInt8.toNat_inj.mp
        rw [UInt8.toNat_ofNat', UInt8.toNat_ofNat', Nat.pow_succ]
        exact Nat.mod_mul_left_mod number (256 ^ count) 256
      have rest : number % 256 ^ (count + 1) / 256 = number / 256 % 256 ^ count := by
        rw [Nat.pow_succ, Nat.mul_comm, Nat.mod_mul_right_div_self]
      rw [encode, encode, byte, rest, ih]

/-- Bytes spell a number below the power of their count. -/
theorem decode_lt (bytes : List UInt8) : decode bytes < 256 ^ bytes.length := by
  have digits : ∀ digit ∈ bytes.map UInt8.toNat, digit < 256 := by
    intro digit member
    obtain ⟨byte, _, rfl⟩ := List.mem_map.mp member
    exact byte.toNat_lt
  have bound := Nat.ofDigits_lt_base_pow_length (by decide : 1 < 256) digits
  rwa [List.length_map] at bound

end LittleEndian
