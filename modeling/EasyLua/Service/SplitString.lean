import EasyLua.Foundation.Splitting

/-!
# Splitting a command line

`splitString` of `serviceEntry.cpp`, on strings of bytes, and the functions of `std::string` that
it calls.
-/

namespace EasyLua

namespace SplitString

/-- `s.find(c, pos)`: the first position from `pos` on at which `c` stands in `s`. -/
def find (s c : List UInt8) (pos : Nat) : Option Nat :=
  (List.range' pos (s.length + 1 - c.length - pos)).find? fun i => c.isPrefixOf (s.drop i)

/-- `s.substr(pos, n)`. -/
def substr (s : List UInt8) (pos n : Nat) : List UInt8 := (s.drop pos).take n

/-- What is found lies in the string, and not before `pos`. -/
theorem find_bounds {s c : List UInt8} {pos pos2 : Nat} (found : find s c pos = some pos2) :
    pos ≤ pos2 ∧ pos2 + c.length ≤ s.length := by
  have member := List.mem_of_find?_eq_some found
  have range := List.mem_range'_1.mp member
  omega

/-- The loop of `splitString` from a position on, and the piece behind the last separator. -/
def splitFrom (s c : List UInt8) (nonempty : c ≠ []) (pos1 : Nat) : List (List UInt8) :=
  match _found : find s c pos1 with
  | some pos2 => substr s pos1 (pos2 - pos1) :: splitFrom s c nonempty (pos2 + c.length)
  | none => if pos1 ≠ s.length then [s.drop pos1] else []
termination_by s.length + 1 - pos1
decreasing_by
  have bounds := find_bounds _found
  have positive := List.length_pos_iff.mpr nonempty
  omega

/-- `splitString(s, v, c)`: what it appends to `v`. -/
def splitString (s c : List UInt8) (nonempty : c ≠ []) : List (List UInt8) :=
  splitFrom s c nonempty 0

/-- The pieces from a position on when there is no separator behind it. -/
theorem splitFrom_none {s c : List UInt8} (nonempty : c ≠ []) {pos1 : Nat}
    (nowhere : find s c pos1 = none) :
    splitFrom s c nonempty pos1 = if pos1 ≠ s.length then [s.drop pos1] else [] := by
  rw [splitFrom]
  split
  · next found => cases nowhere.symm.trans found
  · rfl

/-- The positions at which the loop finds a separator, from a position on. -/
def consumedFrom (s c : List UInt8) (nonempty : c ≠ []) (pos1 : Nat) : List Nat :=
  match _found : find s c pos1 with
  | some pos2 => pos2 :: consumedFrom s c nonempty (pos2 + c.length)
  | none => []
termination_by s.length + 1 - pos1
decreasing_by
  have bounds := find_bounds _found
  have positive := List.length_pos_iff.mpr nonempty
  omega

/-- The string ends in a separator that the scan of `splitString` has consumed. -/
def EndsConsumed (s c : List UInt8) (nonempty : c ≠ []) : Prop :=
  ∃ pos2 ∈ consumedFrom s c nonempty 0, pos2 + c.length = s.length

/-- What is lost when a string is split: nothing but a separator at its end. -/
structure Lossless (s c : List UInt8) (nonempty : c ≠ []) : Prop where
  separate : ∀ piece ∈ splitString s c nonempty, ¬ c <:+: piece
  joined : ¬ EndsConsumed s c nonempty → c.intercalate (splitString s c nonempty) = s
  joined_end : EndsConsumed s c nonempty → c.intercalate (splitString s c nonempty) ++ c = s

variable {s c : List UInt8} {pos1 pos2 : Nat}

theorem find_some (found : find s c pos1 = some pos2) :
    c <+: s.drop pos2 ∧ ∀ i, pos1 ≤ i → i < pos2 → ¬ c <+: s.drop i := by
  obtain ⟨here, _, before⟩ := List.find?_range'_eq_some.mp found
  refine ⟨List.isPrefixOf_iff_prefix.mp here, fun i low high earlier => ?_⟩
  have missed := before i low high
  rw [List.isPrefixOf_iff_prefix.mpr earlier] at missed
  cases missed

/-- A separator that is not found stands nowhere behind. -/
theorem find_none (nonempty : c ≠ []) (nowhere : find s c pos1 = none) :
    ¬ c <:+: s.drop pos1 := by
  rintro ⟨before, after, split⟩
  have positive := List.length_pos_iff.mpr nonempty
  have length := congrArg List.length split
  simp only [List.length_append, List.length_drop] at length
  have missed := List.find?_range'_eq_none.mp nowhere (pos1 + before.length) (by omega) (by omega)
  have stands : c <+: s.drop (pos1 + before.length) := by
    rw [← List.drop_drop, ← split, List.append_assoc, List.drop_left']
    · exact List.prefix_append c after
    · rfl
  rw [List.isPrefixOf_iff_prefix.mpr stands] at missed
  cases missed

theorem splitFrom_some (nonempty : c ≠ []) (found : find s c pos1 = some pos2) :
    splitFrom s c nonempty pos1 =
      substr s pos1 (pos2 - pos1) :: splitFrom s c nonempty (pos2 + c.length) := by
  rw [splitFrom]
  split
  · next found' =>
      cases found.symm.trans found'
      rfl
  · next nowhere => cases nowhere.symm.trans found

theorem consumedFrom_some (nonempty : c ≠ []) (found : find s c pos1 = some pos2) :
    consumedFrom s c nonempty pos1 = pos2 :: consumedFrom s c nonempty (pos2 + c.length) := by
  rw [consumedFrom]
  split
  · next found' =>
      cases found.symm.trans found'
      rfl
  · next nowhere => cases nowhere.symm.trans found

theorem consumedFrom_none (nonempty : c ≠ []) (nowhere : find s c pos1 = none) :
    consumedFrom s c nonempty pos1 = [] := by
  rw [consumedFrom]
  split
  · next found => cases nowhere.symm.trans found
  · rfl

/-- No separator is found at the end of the string, where nothing is left. -/
theorem find_end (nonempty : c ≠ []) (atEnd : pos1 = s.length) :
    find s c pos1 = none ∧ s.drop pos1 = [] := by
  have positive := List.length_pos_iff.mpr nonempty
  refine ⟨?_, List.drop_eq_nil_of_le (Nat.le_of_eq atEnd.symm)⟩
  cases found : find s c pos1 with
  | none => rfl
  | some pos2 =>
      have bounds := find_bounds found
      omega

/-- What is left at a position is the piece up to the separator found, the separator and what is
left behind it. -/
theorem drop_of_find (found : find s c pos1 = some pos2) :
    s.drop pos1 = substr s pos1 (pos2 - pos1) ++ c ++ s.drop (pos2 + c.length) ∧
      (substr s pos1 (pos2 - pos1)).length = pos2 - pos1 ∧
      Splitting.First c (substr s pos1 (pos2 - pos1)) (s.drop (pos2 + c.length)) := by
  obtain ⟨low, high⟩ := find_bounds found
  obtain ⟨⟨rest, here⟩, before⟩ := find_some found
  have length : (substr s pos1 (pos2 - pos1)).length = pos2 - pos1 := by
    unfold substr
    rw [List.length_take, List.length_drop]
    omega
  have behind : s.drop (pos2 + c.length) = rest := by
    rw [← List.drop_drop, ← here, List.drop_left']
    rfl
  have split : s.drop pos1 = substr s pos1 (pos2 - pos1) ++ c ++ s.drop (pos2 + c.length) := by
    have parts := List.take_append_drop (pos2 - pos1) (s.drop pos1)
    rw [List.drop_drop, Nat.add_sub_cancel' low, ← here, ← List.append_assoc] at parts
    rw [behind]
    exact parts.symm
  refine ⟨split, length, fun i below earlier => ?_⟩
  rw [← split, List.drop_drop] at earlier
  exact before (pos1 + i) (by omega) (by omega) earlier

/-- **The loop splits what is left**, and what is left ends in a separator that ended a piece if
and only if the loop has consumed one there. -/
theorem splitFrom_split (nonempty : c ≠ []) (pos1 : Nat) (inside : pos1 ≤ s.length) :
    ∃ closed, Splitting.Split c (s.drop pos1) (splitFrom s c nonempty pos1) closed ∧
      (closed = true ↔ ∃ pos2 ∈ consumedFrom s c nonempty pos1, pos2 + c.length = s.length) := by
  induction rounds : s.length + 1 - pos1 using Nat.strong_induction_on generalizing pos1 with
  | _ rounds ih =>
      cases found : find s c pos1 with
      | none =>
          rw [splitFrom_none nonempty found, consumedFrom_none nonempty found]
          refine ⟨false, ?_, by simp⟩
          by_cases atEnd : pos1 = s.length
          · rw [if_neg (not_not_intro atEnd), List.drop_eq_nil_of_le (Nat.le_of_eq atEnd.symm)]
            exact .nothing
          · rw [if_pos atEnd]
            refine .last ?_ (find_none nonempty found)
            rw [ne_eq, List.drop_eq_nil_iff]
            omega
      | some pos2 =>
          have positive := List.length_pos_iff.mpr nonempty
          obtain ⟨low, high⟩ := find_bounds found
          obtain ⟨split, _, first⟩ := drop_of_find found
          obtain ⟨closed, behind, closes⟩ :=
            ih _ (by omega) (pos2 + c.length) high rfl
          rw [splitFrom_some nonempty found, consumedFrom_some nonempty found, split]
          by_cases atEnd : pos2 + c.length = s.length
          · obtain ⟨nowhere, rest⟩ := find_end nonempty atEnd
            rw [rest] at first ⊢
            rw [splitFrom_none nonempty nowhere, if_neg (not_not_intro atEnd), List.append_nil]
            exact ⟨true, .closing first, by simp [atEnd]⟩
          · refine ⟨closed, .piece ?_ first behind, ?_⟩
            · rw [ne_eq, List.drop_eq_nil_iff]
              omega
            · rw [closes, List.exists_mem_cons_iff]
              exact ⟨Or.inr, fun either => either.resolve_left atEnd⟩

/-- The pieces of the whole string. -/
theorem splitString_split (nonempty : c ≠ []) :
    ∃ closed, Splitting.Split c s (splitString s c nonempty) closed ∧
      (closed = true ↔ EndsConsumed s c nonempty) :=
  splitFrom_split nonempty 0 (Nat.zero_le _)

/-- **Splitting loses nothing** but a separator at the end that the scan consumes. -/
theorem lossless (nonempty : c ≠ []) : Lossless s c nonempty := by
  obtain ⟨closed, split, closes⟩ := splitString_split (s := s) nonempty
  have joined := split.intercalate
  refine ⟨split.separate nonempty, fun open_ => ?_, fun ends => ?_⟩
  · rw [← closes] at open_
    rw [if_neg open_, List.append_nil] at joined
    exact joined
  · rw [if_pos (closes.mpr ends)] at joined
    exact joined

end SplitString

end EasyLua
