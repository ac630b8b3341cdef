import Mathlib.Data.Nat.Digits.Defs
import Mathlib.Tactic.IntervalCases

/-!
# Decimal numbers in text

How a number is written in decimal, and how the conversion `%d` of `sscanf` reads one: white
space is skipped, a sign may stand before the digits, and the longest run of digits is taken.
What was written is read.
-/

namespace Decimal

/-- A digit. -/
def isDigit (byte : UInt8) : Bool := 48 ≤ byte && byte ≤ 57

/-- `isspace` in the C locale. -/
def isSpace (byte : UInt8) : Bool := byte = 32 || (9 ≤ byte && byte ≤ 13)

/-- The digit for a number below ten. -/
def digit (n : Nat) : UInt8 := .ofNat (48 + n)

/-- The number that digits stand for, the highest first. -/
def value (digits : List UInt8) : Nat :=
  digits.foldl (fun number byte => 10 * number + (byte.toNat - 48)) 0

/-- A number in decimal. -/
def text (n : Nat) : List UInt8 :=
  if n = 0 then [48] else ((Nat.digits 10 n).map digit).reverse

/-- The longest run of digits, if there is one. -/
def scanDigits (bytes : List UInt8) : Option (Nat × List UInt8) :=
  if bytes.takeWhile isDigit = [] then none
  else some (value (bytes.takeWhile isDigit), bytes.dropWhile isDigit)

/-- The conversion `%d`: the number, and what follows it. -/
def scan (bytes : List UInt8) : Option (Int × List UInt8) :=
  match bytes.dropWhile isSpace with
  | 45 :: rest => (scanDigits rest).map fun (number, rest) => (-number, rest)
  | 43 :: rest => (scanDigits rest).map fun (number, rest) => (number, rest)
  | other => (scanDigits other).map fun (number, rest) => (number, rest)

/-! ## What was written is read -/

theorem isDigit_digit {n : Nat} (small : n < 10) : isDigit (digit n) = true := by
  interval_cases n <;> rfl

theorem toNat_digit {n : Nat} (small : n < 10) : (digit n).toNat - 48 = n := by
  interval_cases n <;> rfl

theorem isDigit_text {n : Nat} {byte : UInt8} (member : byte ∈ text n) : isDigit byte = true := by
  unfold text at member
  split at member
  · rw [List.mem_singleton.mp member]
    rfl
  · rw [List.mem_reverse] at member
    obtain ⟨number, inside, rfl⟩ := List.mem_map.mp member
    exact isDigit_digit (Nat.digits_lt_base (Nat.one_lt_succ_succ 8) inside)

theorem text_ne_nil (n : Nat) : text n ≠ [] := by
  unfold text
  split
  · simp
  · rename_i positive
    simp [Nat.digits_ne_nil_iff_ne_zero, positive]

/-- Digits with the lowest first stand for a number in base ten. -/
theorem value_digits {numbers : List Nat} (small : ∀ number ∈ numbers, number < 10) :
    value (numbers.map digit).reverse = Nat.ofDigits 10 numbers := by
  induction numbers with
  | nil => rfl
  | cons number rest ih =>
      have tail := ih fun other member => small other (List.mem_cons_of_mem _ member)
      unfold value at tail ⊢
      rw [List.map_cons, List.reverse_cons, List.foldl_append, tail, List.foldl_cons,
        List.foldl_nil, toNat_digit (small number List.mem_cons_self), Nat.ofDigits_cons,
        Nat.add_comm]

theorem value_text (n : Nat) : value (text n) = n := by
  unfold text
  split
  · rename_i zero
    rw [zero]
    rfl
  · have small (number : Nat) (member : number ∈ Nat.digits 10 n) : number < 10 :=
      Nat.digits_lt_base (Nat.one_lt_succ_succ 8) member
    rw [value_digits small, Nat.ofDigits_digits]

/-- No digit is a space or a sign. -/
theorem plain_of_isDigit {byte : UInt8} (isDigit_ : isDigit byte = true) :
    isSpace byte = false ∧ byte ≠ 45 ∧ byte ≠ 43 := by
  unfold isDigit at isDigit_
  obtain ⟨low, high⟩ := Bool.and_eq_true_iff.mp isDigit_
  have low := UInt8.le_iff_toNat_le.mp (of_decide_eq_true low)
  have above : 48 ≤ byte.toNat := low
  refine ⟨?_, ?_, ?_⟩
  · have noSpace : byte ≠ 32 := by
      rintro rfl
      exact absurd above (by decide)
    have noControl : ¬ byte ≤ 13 := by
      intro le
      have below : byte.toNat ≤ 13 := UInt8.le_iff_toNat_le.mp le
      omega
    simp [isSpace, noSpace, noControl]
  · rintro rfl
    exact absurd above (by decide)
  · rintro rfl
    exact absurd above (by decide)

/-- The number ends where the digits do. -/
theorem scan_text (n : Nat) {rest : List UInt8}
    (ends : ∀ byte, rest.head? = some byte → isDigit byte = false) :
    scan (text n ++ rest) = some ((n : Int), rest) := by
  have stops : rest.takeWhile isDigit = [] ∧ rest.dropWhile isDigit = rest := by
    cases rest with
    | nil => exact ⟨rfl, rfl⟩
    | cons byte after =>
        have noDigit := ends byte rfl
        simp [noDigit]
  have digits (byte : UInt8) (member : byte ∈ text n) : isDigit byte = true := isDigit_text member
  have taken : (text n ++ rest).takeWhile isDigit = text n := by
    rw [List.takeWhile_append_of_pos digits, stops.1, List.append_nil]
  have dropped : (text n ++ rest).dropWhile isDigit = rest := by
    rw [List.dropWhile_append_of_pos digits, stops.2]
  obtain ⟨first, after, isText⟩ := List.exists_cons_of_ne_nil (text_ne_nil n)
  obtain ⟨noSpace, noMinus, noPlus⟩ := plain_of_isDigit
    (digits first (isText ▸ List.mem_cons_self))
  have trimmed : (text n ++ rest).dropWhile isSpace = text n ++ rest := by
    rw [isText, List.cons_append, List.dropWhile_cons_of_neg (by simp [noSpace])]
  unfold scan
  rw [trimmed]
  dsimp only
  split
  · rename_i begins
    rw [isText] at begins
    exact absurd (List.cons.inj begins).1 noMinus
  · rename_i begins
    rw [isText] at begins
    exact absurd (List.cons.inj begins).1 noPlus
  · unfold scanDigits
    rw [taken, dropped, if_neg (text_ne_nil n), value_text]
    rfl

end Decimal
