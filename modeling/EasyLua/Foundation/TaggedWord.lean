import Mathlib.Data.Nat.Bitwise

/-!
# Words with a tag in their high bits

A word of `w` bits whose highest `t` bits hold a tag and whose other bits hold a payload. The
two are put together with a bitwise or, which protects neither from the other.
-/

namespace TaggedWord

variable {w : Nat}

/-- The payload and the tag in one word. -/
def pack (t : Nat) (payload tag : BitVec w) : BitVec w := payload ||| tag <<< (w - t)

/-- The tag of a word. -/
def tag (t : Nat) (word : BitVec w) : BitVec w := word >>> (w - t)

/-- The bits of the payload. -/
def mask (t : Nat) : BitVec w := BitVec.allOnes w >>> t

/-- The payload of a word. -/
def payload (t : Nat) (word : BitVec w) : BitVec w := word &&& mask t

variable {t : Nat}

theorem getLsbD_mask (t i : Nat) : (mask t : BitVec w).getLsbD i = decide (i < w - t) := by
  unfold mask
  rw [BitVec.getLsbD_ushiftRight, BitVec.getLsbD_allOnes]
  simp only [decide_eq_decide]
  omega

/-- The payload is what the word is modulo the first power of two that it cannot hold. -/
theorem payload_toNat (t : Nat) (word : BitVec w) :
    (payload t word).toNat = word.toNat % 2 ^ (w - t) := by
  apply Nat.eq_of_testBit_eq
  intro i
  rw [Nat.testBit_mod_two_pow, ← BitVec.getLsbD, ← BitVec.getLsbD]
  unfold payload
  rw [BitVec.getLsbD_and, getLsbD_mask, Bool.and_comm]

theorem tag_toNat (t : Nat) (word : BitVec w) : (tag t word).toNat = word.toNat / 2 ^ (w - t) := by
  unfold tag
  rw [BitVec.toNat_ushiftRight, Nat.shiftRight_eq_div_pow]

/-- A payload is below the first power of two that it cannot hold. -/
theorem payload_lt (t : Nat) (word : BitVec w) : (payload t word).toNat < 2 ^ (w - t) := by
  rw [payload_toNat]
  exact Nat.mod_lt _ (Nat.two_pow_pos _)

/-- The tag does not reach into the payload. -/
theorem payload_pack (word tag : BitVec w) : payload t (pack t word tag) = payload t word := by
  apply BitVec.eq_of_getLsbD_eq
  intro i inside
  unfold payload pack
  simp only [BitVec.getLsbD_and, BitVec.getLsbD_or, BitVec.getLsbD_shiftLeft, getLsbD_mask]
  by_cases low : i < w - t
  · simp [low]
  · simp [low]

/-- What of the payload does not fit goes into the tag. -/
theorem tag_pack {word mark : BitVec w} (fits : mark.toNat < 2 ^ t) (narrow : t ≤ w) :
    tag t (pack t word mark) = tag t word ||| mark := by
  have kept : mark <<< (w - t) >>> (w - t) = mark := by
    apply BitVec.eq_of_toNat_eq
    have inside : mark.toNat * 2 ^ (w - t) < 2 ^ w := by
      calc mark.toNat * 2 ^ (w - t) < 2 ^ t * 2 ^ (w - t) :=
            Nat.mul_lt_mul_of_pos_right fits (Nat.two_pow_pos _)
        _ = 2 ^ w := by rw [← Nat.pow_add, Nat.add_sub_cancel' narrow]
    rw [BitVec.toNat_ushiftRight, BitVec.toNat_shiftLeft, Nat.shiftLeft_eq,
      Nat.shiftRight_eq_div_pow, Nat.mod_eq_of_lt inside]
    exact Nat.mul_div_cancel _ (Nat.two_pow_pos _)
  unfold tag pack
  rw [BitVec.ushiftRight_or_distrib, kept]

/-- A payload that fits leaves the tag as it was given. -/
theorem tag_pack_of_lt {word mark : BitVec w} (fits : mark.toNat < 2 ^ t) (narrow : t ≤ w)
    (small : word.toNat < 2 ^ (w - t)) : tag t (pack t word mark) = mark := by
  have empty : tag t word = 0#w := by
    apply BitVec.eq_of_toNat_eq
    rw [tag_toNat, Nat.div_eq_of_lt small]
    simp
  rw [tag_pack fits narrow, empty]
  simp

/-- A payload that fits is read back. -/
theorem payload_pack_of_lt {word mark : BitVec w} (small : word.toNat < 2 ^ (w - t)) :
    payload t (pack t word mark) = word := by
  rw [payload_pack]
  apply BitVec.eq_of_toNat_eq
  rw [payload_toNat, Nat.mod_eq_of_lt small]

end TaggedWord
