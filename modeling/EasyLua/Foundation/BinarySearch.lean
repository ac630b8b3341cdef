import Mathlib.Algebra.Order.Ring.Int

/-!
# Binary search

The loop over a closed interval of indices, where a probe says on which side of an index the
key is. It finds the index of the key, or the one before which the key belongs.
-/

namespace BinarySearch

/-- Where a search ends: at the key, or at the index before which it belongs. -/
inductive Place
  | hit (mid : Nat)
  | miss (first : Nat)

/-- `while (first <= last)`. -/
def search (probe : Nat → Ordering) (first last : Int) : Place :=
  if first ≤ last then
    let mid := (first + last) / 2
    match probe mid.toNat with
    | .eq => .hit mid.toNat
    | .lt => search probe (mid + 1) last
    | .gt => search probe first (mid - 1)
  else .miss first.toNat
termination_by (last + 1 - first).toNat
decreasing_by all_goals omega

variable {probe : Nat → Ordering} {n : Nat} {first last : Int}

theorem search_of_eq (going : first ≤ last) (here : probe ((first + last) / 2).toNat = .eq) :
    search probe first last = .hit ((first + last) / 2).toNat := by
  rw [search, if_pos going]
  simp only [here]

theorem search_of_lt (going : first ≤ last) (here : probe ((first + last) / 2).toNat = .lt) :
    search probe first last = search probe ((first + last) / 2 + 1) last := by
  rw [search, if_pos going]
  simp only [here]

theorem search_of_gt (going : first ≤ last) (here : probe ((first + last) / 2).toNat = .gt) :
    search probe first last = search probe first ((first + last) / 2 - 1) := by
  rw [search, if_pos going]
  simp only [here]

/-- The probes of indices up to the key's point up, and those after it down. -/
def Sorted (probe : Nat → Ordering) (n : Nat) : Prop :=
  ∀ i j, i < j → j < n → probe j ≠ .gt → probe i = .lt

/-- What a search of the first `n` indices may find. -/
def Found (probe : Nat → Ordering) (n : Nat) : Place → Prop
  | .hit mid => mid < n ∧ probe mid = .eq
  | .miss first => first ≤ n ∧ (∀ i < first, probe i = .lt) ∧ ∀ i, first ≤ i → i < n → probe i = .gt

/-- The loop keeps the key's point between its bounds. -/
theorem found_from (sorted : Sorted probe n) (first last : Int) (least : 0 ≤ first)
    (order : first ≤ last + 1) (inside : last < n)
    (lower : ∀ i : Nat, (i : Int) < first → probe i = .lt)
    (upper : ∀ i : Nat, last < i → i < n → probe i = .gt) :
    Found probe n (search probe first last) := by
  fun_induction search probe first last with
  | case1 first last going mid here =>
      have : mid = (first + last) / 2 := rfl
      exact ⟨by omega, here⟩
  | case2 first last going mid here ih =>
      have : mid = (first + last) / 2 := rfl
      apply ih
      · omega
      · omega
      · exact inside
      · intro i below
        rcases Nat.lt_or_ge i mid.toNat with before | after
        · exact sorted i mid.toNat before (by omega) (by rw [here]; decide)
        · rw [show i = mid.toNat by omega]
          exact here
      · exact upper
  | case3 first last going mid here ih =>
      have : mid = (first + last) / 2 := rfl
      apply ih
      · exact least
      · omega
      · omega
      · exact lower
      · intro i above below
        rcases Nat.lt_or_ge mid.toNat i with after | before
        · by_contra other
          rw [sorted mid.toNat i after below other] at here
          cases here
        · rw [show i = mid.toNat by omega]
          exact here
  | case4 first last done =>
      refine ⟨by omega, fun i below => lower i (by omega), fun i above below => ?_⟩
      exact upper i (by omega) below

/-- **The search finds the key**, or the place where it belongs. -/
theorem found (sorted : Sorted probe n) : Found probe n (search probe 0 ((n : Int) - 1)) := by
  apply found_from sorted
  · exact Int.le_refl 0
  · omega
  · omega
  · intro i below
    omega
  · intro i above below
    omega

/-- A place between the bounds of a search. -/
def Inside (first last : Int) : Place → Prop
  | .hit mid => first ≤ mid ∧ mid ≤ last
  | .miss before => first ≤ before ∧ before ≤ last + 1

/-- A search stays between its bounds, whatever the probes say. -/
theorem search_inside (probe : Nat → Ordering) (first last : Int) (least : 0 ≤ first)
    (order : first ≤ last + 1) : Inside first last (search probe first last) := by
  fun_induction search probe first last with
  | case1 first last going mid here =>
      have : mid = (first + last) / 2 := rfl
      dsimp only [Inside]
      omega
  | case2 first last going mid here ih =>
      have : mid = (first + last) / 2 := rfl
      have := ih (by omega) (by omega)
      revert this
      cases search probe (mid + 1) last <;> dsimp only [Inside] <;> omega
  | case3 first last going mid here ih =>
      have : mid = (first + last) / 2 := rfl
      have := ih least (by omega)
      revert this
      cases search probe first (mid - 1) <;> dsimp only [Inside] <;> omega
  | case4 first last done =>
      dsimp only [Inside]
      omega

/-- Probes that agree inside the bounds find the same. -/
theorem search_congr {other : Nat → Ordering} (first last : Int) (least : 0 ≤ first)
    (same : ∀ i : Nat, first ≤ i → i ≤ last → other i = probe i) :
    search other first last = search probe first last := by
  fun_induction search probe first last with
  | case1 first last going mid here =>
      apply search_of_eq going
      rw [same _ (by omega) (by omega)]
      exact here
  | case2 first last going mid here ih =>
      have : mid = (first + last) / 2 := rfl
      rw [search_of_lt going]
      · exact ih (by omega) fun i above below => same i (by omega) below
      · rw [same _ (by omega) (by omega)]
        exact here
  | case3 first last going mid here ih =>
      have : mid = (first + last) / 2 := rfl
      rw [search_of_gt going]
      · exact ih least fun i above below => same i above (by omega)
      · rw [same _ (by omega) (by omega)]
        exact here
  | case4 first last done =>
      unfold search
      rw [if_neg done]

end BinarySearch
