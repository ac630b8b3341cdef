import Mathlib.Data.List.Basic
import Mathlib.Data.List.InsertIdx
import Mathlib.Logic.Function.Basic

/-!
# Loops over the cells of an array

An array is a function from indices; which of its cells are in use is up to its owner. The
loops that copy cells to another array, shift them by one and close up gaps are described by
what they leave in the cells, and as operations on the list of the cells in use.
-/

namespace Cells

variable {α : Type*} {cell : Nat → α} {n : Nat}

/-- The first `n` cells. -/
def window (cell : Nat → α) (n : Nat) : List α := (List.range n).map cell

@[simp] theorem length_window : (window cell n).length = n := by
  unfold window
  rw [List.length_map, List.length_range]

theorem getElem?_window (i : Nat) :
    (window cell n)[i]? = if i < n then some (cell i) else none := by
  unfold window
  rw [List.getElem?_map]
  split
  · rename_i inside
    rw [List.getElem?_range inside]
    rfl
  · rename_i outside
    rw [List.getElem?_eq_none (by rw [List.length_range]; omega)]
    rfl

theorem window_succ : window cell (n + 1) = window cell n ++ [cell n] := by
  unfold window
  rw [List.range_succ, List.map_append, List.map_singleton]

theorem window_congr {other : Nat → α} (same : ∀ i < n, other i = cell i) :
    window other n = window cell n := by
  unfold window
  exact List.map_congr_left fun i member => same i (List.mem_range.mp member)

/-- A relation between all cells in use, by their indices. -/
theorem pairwise_window {R : α → α → Prop} :
    (window cell n).Pairwise R ↔ ∀ i j, i < j → j < n → R (cell i) (cell j) := by
  rw [List.pairwise_iff_getElem]
  simp only [window, List.getElem_map, List.getElem_range, List.length_map, List.length_range]
  exact ⟨fun all i j below inside => all i j (Nat.lt_trans below inside) inside below,
    fun all i j _ inside below => all i j below inside⟩

/-! ## Copying and shifting -/

/-- `for (; count; i++) target[i + offset] = source[i]`. -/
def copy (source : Nat → α) (offset : Nat) : Nat → Nat → (Nat → α) → Nat → α
  | 0, _, target => target
  | count + 1, i, target =>
      copy source offset count (i + 1) (Function.update target (i + offset) (source i))

theorem copy_apply (source : Nat → α) (offset count : Nat) : ∀ i target k,
    copy source offset count i target k =
      if i + offset ≤ k ∧ k < i + offset + count then source (k - offset) else target k := by
  induction count with
  | zero =>
      intro i target k
      rw [if_neg (by omega)]
      rfl
  | succ count ih =>
      intro i target k
      unfold copy
      rw [ih]
      by_cases here : k = i + offset
      · subst here
        rw [if_neg (by omega), if_pos (by omega), Function.update_self, Nat.add_sub_cancel]
      · rw [Function.update_of_ne here]
        exact if_congr (by omega) rfl rfl

/-- `for (; i > before; i--) cell[i] = cell[i - 1]`. -/
def shift (before : Nat) : Nat → (Nat → α) → Nat → α
  | 0, cell => cell
  | i + 1, cell =>
      if before < i + 1 then shift before i (Function.update cell (i + 1) (cell i)) else cell

theorem shift_apply (before i : Nat) : ∀ (cell : Nat → α) k,
    shift before i cell k = if before < k ∧ k ≤ i then cell (k - 1) else cell k := by
  induction i with
  | zero =>
      intro cell k
      rw [if_neg (by omega)]
      rfl
  | succ i ih =>
      intro cell k
      unfold shift
      split
      · rw [ih]
        by_cases here : k = i + 1
        · subst here
          rw [if_neg (by omega), if_pos (by omega), Function.update_self, Nat.add_sub_cancel]
        · rw [Function.update_of_ne here]
          by_cases inside : before < k ∧ k ≤ i
          · rw [if_pos inside, if_pos (by omega), Function.update_of_ne (by omega)]
          · rw [if_neg inside, if_neg (by omega)]
      · rw [if_neg (by omega)]

theorem window_add (first rest : Nat) :
    window cell (first + rest) = window cell first ++ window (fun i => cell (first + i)) rest := by
  unfold window
  rw [List.range_add, List.map_append, List.map_map]
  rfl

theorem take_window {first : Nat} (inside : first ≤ n) :
    (window cell n).take first = window cell first := by
  obtain ⟨rest, rfl⟩ := Nat.exists_eq_add_of_le inside
  rw [window_add, List.take_left' length_window]

theorem drop_window {first : Nat} (inside : first ≤ n) :
    (window cell n).drop first = window (fun i => cell (first + i)) (n - first) := by
  obtain ⟨rest, rfl⟩ := Nat.exists_eq_add_of_le inside
  rw [window_add, List.drop_left' length_window, Nat.add_sub_cancel_left]

/-- Cells that have made room for a new one. -/
theorem window_insert {other : Nat → α} {before : Nat} (inside : before ≤ n)
    (lower : ∀ k < before, other k = cell k)
    (upper : ∀ k, before ≤ k → k < n → other (k + 1) = cell k) :
    window other (n + 1) =
      (window cell n).take before ++ other before :: (window cell n).drop before := by
  rw [take_window inside, drop_window inside]
  obtain ⟨rest, rfl⟩ := Nat.exists_eq_add_of_le inside
  have split : before + rest + 1 = before + 1 + rest := by omega
  rw [split, window_add, window_succ, List.append_assoc, Nat.add_sub_cancel_left,
    window_congr lower, List.singleton_append]
  congr 2
  apply window_congr
  intro i below
  have := upper (before + i) (by omega) (by omega)
  rwa [Nat.add_right_comm] at this

/-- An element that stands between those before and those after its place. -/
theorem pairwise_insert {R : α → α → Prop} {l : List α} {a : α} {i : Nat} (sorted : l.Pairwise R)
    (lower : ∀ b ∈ l.take i, R b a) (upper : ∀ b ∈ l.drop i, R a b) :
    (l.take i ++ a :: l.drop i).Pairwise R := by
  rw [← List.take_append_drop i l, List.pairwise_append] at sorted
  obtain ⟨first, second, across⟩ := sorted
  rw [List.pairwise_append, List.pairwise_cons]
  refine ⟨first, ⟨upper, second⟩, fun b before c member => ?_⟩
  rcases List.mem_cons.mp member with rfl | after
  · exact lower b before
  · exact across b before c after

/-! ## Closing up -/

/-- The loop that drops cells and moves the others down, with `count` rounds left from `i` on and
`j` cells kept: how many it keeps, and the cells. -/
def compact (drop : α → Bool) : Nat → Nat → Nat → (Nat → α) → Nat × (Nat → α)
  | 0, _, j, cell => (j, cell)
  | count + 1, i, j, cell =>
      if drop (cell i) then compact drop count (i + 1) j cell
      else compact drop count (i + 1) (j + 1)
        (if i ≠ j then Function.update cell j (cell i) else cell)

/-- The cells that are still to be looked at are those of the array as it was. -/
theorem window_compact_from (drop : α → Bool) (count : Nat) : ∀ i j (cell : Nat → α), j ≤ i →
    window (compact drop count i j cell).2 (compact drop count i j cell).1 =
      window cell j ++ (window (fun k => cell (i + k)) count).filter fun a => !drop a := by
  induction count with
  | zero =>
      intro i j cell _
      exact (List.append_nil _).symm
  | succ count ih =>
      intro i j cell behind
      have next : window (fun k => cell (i + k)) (count + 1) =
          cell i :: window (fun k => cell (i + 1 + k)) count := by
        rw [Nat.add_comm count 1, window_add]
        change cell i :: window (fun k => cell (i + (1 + k))) count = _
        congr 1
        apply window_congr
        intro k _
        rw [Nat.add_assoc]
      unfold compact
      rw [next, List.filter_cons]
      by_cases dropped : drop (cell i) = true
      · simp only [dropped, if_true, Bool.not_true, Bool.false_eq_true, if_false]
        exact ih (i + 1) j cell (by omega)
      · rw [Bool.not_eq_true] at dropped
        simp only [dropped, Bool.false_eq_true, if_false, Bool.not_false, if_true]
        rw [ih (i + 1) (j + 1) _ (by omega), window_succ, List.append_assoc, List.singleton_append]
        by_cases same : i = j
        · subst same
          simp only [ne_eq, not_true_eq_false, if_false]
        · simp only [ne_eq, same, not_false_eq_true, if_true, Function.update_self]
          congr 1
          · apply window_congr
            intro k below
            exact Function.update_of_ne (by omega) ..
          · congr 2
            apply window_congr
            intro k below
            exact Function.update_of_ne (by omega) ..

/-- Closing up filters the cells in use. -/
theorem window_compact (drop : α → Bool) (cell : Nat → α) (n : Nat) :
    window (compact drop n 0 0 cell).2 (compact drop n 0 0 cell).1 =
      (window cell n).filter fun a => !drop a := by
  rw [window_compact_from drop n 0 0 cell (Nat.le_refl 0)]
  simp only [Nat.zero_add]
  rfl

end Cells
