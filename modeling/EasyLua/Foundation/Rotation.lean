import Mathlib.Algebra.Order.Group.Nat
import Mathlib.Data.List.Iterate
import Mathlib.Data.List.Nodup
import Mathlib.Data.Nat.ModEq

/-!
# Counting round and round

The numbers from 1 to a period, one after the other and then again from the start. A function
whose values are ranked by these numbers, and that goes from each to the next, gives no value
twice within a period.
-/

namespace Rotation

/-- The number after `i`. -/
def next (period i : Nat) : Nat := i % period + 1

variable {α : Type*} {function : α → α} {rank : α → Nat} {period : Nat}

/-- The function goes from each number to the next. -/
def Turns (function : α → α) (rank : α → Nat) (period : Nat) : Prop :=
  ∀ a, 1 ≤ rank a → rank a ≤ period → rank (function a) = next period (rank a)

/-- So many turns later. -/
theorem Turns.rank_iterate (turns : Turns function rank period) {a : α} (positive : 1 ≤ rank a)
    (bounded : rank a ≤ period) (k : Nat) :
    rank (function^[k] a) = (rank a - 1 + k) % period + 1 := by
  have nonzero : 0 < period := Nat.lt_of_lt_of_le positive bounded
  induction k with
  | zero =>
      rw [Nat.add_zero, Nat.mod_eq_of_lt (by omega), Nat.sub_add_cancel positive]
      rfl
  | succ k ih =>
      have below := Nat.mod_lt (rank a - 1 + k) nonzero
      rw [Function.iterate_succ_apply', turns _ (by omega) (by omega), ih]
      unfold next
      rw [Nat.mod_add_mod]
      rfl

theorem Turns.rank_iterate_bounds (turns : Turns function rank period) {a : α}
    (positive : 1 ≤ rank a) (bounded : rank a ≤ period) (k : Nat) :
    1 ≤ rank (function^[k] a) ∧ rank (function^[k] a) ≤ period := by
  have below := Nat.mod_lt (rank a - 1 + k) (Nat.lt_of_lt_of_le positive bounded)
  rw [turns.rank_iterate positive bounded]
  omega

/-- No value twice within a period. -/
theorem Turns.nodup_iterate (turns : Turns function rank period) {a : α} (positive : 1 ≤ rank a)
    (bounded : rank a ≤ period) {n : Nat} (short : n ≤ period) :
    (List.iterate function a n).Nodup := by
  rw [← List.range_map_iterate]
  refine List.nodup_range.map_on ?_
  intro i iBelow j jBelow same
  have ranks := congrArg rank same
  rw [turns.rank_iterate positive bounded, turns.rank_iterate positive bounded] at ranks
  have congruent : i ≡ j [MOD period] := Nat.ModEq.add_left_cancel' _ (Nat.succ.inj ranks)
  exact congruent.eq_of_lt_of_lt (Nat.lt_of_lt_of_le (List.mem_range.mp iBelow) short)
    (Nat.lt_of_lt_of_le (List.mem_range.mp jBelow) short)

/-- Nor within any period of a longer row of values. -/
theorem Turns.nodup_window (turns : Turns function rank period) {a : α} (positive : 1 ≤ rank a)
    (bounded : rank a ≤ period) (n first : Nat) :
    (((List.iterate function a n).drop first).take period).Nodup := by
  by_cases inside : first ≤ n
  · obtain ⟨rest, rfl⟩ := Nat.exists_eq_add_of_le inside
    obtain ⟨low, high⟩ := turns.rank_iterate_bounds positive bounded first
    rw [List.iterate_add, List.drop_left' (List.length_iterate ..), List.take_iterate]
    exact turns.nodup_iterate low high (Nat.min_le_left ..)
  · rw [List.drop_eq_nil_of_le (by rw [List.length_iterate]; omega), List.take_nil]
    exact List.nodup_nil

end Rotation
