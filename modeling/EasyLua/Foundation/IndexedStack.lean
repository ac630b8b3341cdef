import Mathlib.Data.List.Basic
import Mathlib.Data.Int.Order.Basic

/-!
# Stacks that are read by index

A stack is a list, its top first. A positive index counts its elements from the bottom, a
negative one from the top, both from one on.
-/

namespace IndexedStack

variable {α : Type*}

/-- The number of elements above the one at an index. -/
def position (stack : List α) (index : Int) : Option Nat :=
  if 0 < index ∧ index ≤ stack.length then some (stack.length - index.toNat)
  else if index < 0 ∧ -index ≤ stack.length then some (-index - 1).toNat
  else none

/-- The element at an index. -/
def slot (stack : List α) (index : Int) : Option α := (position stack index).bind (stack[·]?)

/-- The stack without the element at an index. -/
def remove (stack : List α) (index : Int) : Option (List α) :=
  (position stack index).map stack.eraseIdx

variable (front : List α) (element : α) (below : List α)

/-- An index from the bottom is the height of the stack up to its element. -/
theorem position_absolute :
    position (front ++ element :: below) (element :: below).length = some front.length := by
  unfold position
  rw [if_pos]
  · simp
  · simp only [List.length_append, List.length_cons]
    omega

/-- An index from the top counts the elements down to its own. -/
theorem position_relative :
    position (front ++ element :: below) (-(front.length + 1)) = some front.length := by
  unfold position
  rw [if_neg, if_pos]
  · congr 1
    omega
  · simp only [List.length_append, List.length_cons]
    omega
  · omega

theorem slot_of_position {index : Int}
    (place : position (front ++ element :: below) index = some front.length) :
    slot (front ++ element :: below) index = some element := by
  unfold slot
  rw [place]
  simp

theorem slot_absolute :
    slot (front ++ element :: below) (element :: below).length = some element :=
  slot_of_position front element below (position_absolute front element below)

theorem slot_relative : slot (front ++ element :: below) (-(front.length + 1)) = some element :=
  slot_of_position front element below (position_relative front element below)

/-- A push does not move what is counted from the bottom. -/
theorem slot_cons_of_pos {stack : List α} {index : Int} (positive : 0 < index)
    (found : slot stack index = some element) (top : α) :
    slot (top :: stack) index = some element := by
  unfold slot position at found ⊢
  by_cases inside : index ≤ stack.length
  · rw [if_pos ⟨positive, inside⟩, Option.bind_some] at found
    have room : index ≤ (top :: stack).length := by
      rw [List.length_cons]
      omega
    have above : (top :: stack).length - index.toNat = stack.length - index.toNat + 1 := by
      rw [List.length_cons]
      omega
    rw [if_pos ⟨positive, room⟩, Option.bind_some, above, List.getElem?_cons_succ]
    exact found
  · rw [if_neg (fun bounds => inside bounds.2), if_neg (by omega)] at found
    exact nomatch found

theorem remove_absolute :
    remove (front ++ element :: below) (element :: below).length = some (front ++ below) := by
  unfold remove
  rw [position_absolute]
  simp [List.eraseIdx_append_of_length_le]

theorem remove_relative :
    remove (front ++ element :: below) (-(front.length + 1)) = some (front ++ below) := by
  unfold remove
  rw [position_relative]
  simp [List.eraseIdx_append_of_length_le]

end IndexedStack
