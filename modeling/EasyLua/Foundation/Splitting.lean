import Mathlib.Data.List.Infix

/-!
# Splitting at a separator

A text is read from left to right; each piece ends where the separator stands first, and what is
behind the last separator is a piece only if there is something. Whatever does the splitting, the
pieces and the separators make up the text.
-/

namespace Splitting

variable {α : Type*}

/-- In the text of a piece, the separator and the rest, the separator does not stand earlier. -/
def First (separator piece rest : List α) : Prop :=
  ∀ i < piece.length, ¬ separator <+: (piece ++ separator ++ rest).drop i

/-- The pieces of a text, and whether it ends in a separator that ended a piece. -/
inductive Split (separator : List α) : List α → List (List α) → Bool → Prop
  | nothing : Split separator [] [] false
  | last {text : List α} (nonempty : text ≠ []) (absent : ¬ separator <:+: text) :
      Split separator text [text] false
  | closing {piece : List α} (first : First separator piece []) :
      Split separator (piece ++ separator) [piece] true
  | piece {piece rest : List α} {pieces : List (List α)} {closed : Bool} (more : rest ≠ [])
      (first : First separator piece rest) (behind : Split separator rest pieces closed) :
      Split separator (piece ++ separator ++ rest) (piece :: pieces) closed

variable {separator piece rest text : List α} {pieces : List (List α)} {closed : Bool}

/-- A piece that ends at the first separator contains none. -/
theorem First.not_infix (first : First separator piece rest) (nonempty : separator ≠ []) :
    ¬ separator <:+: piece := by
  rintro ⟨before, after, rfl⟩
  have positive := List.length_pos_iff.mpr nonempty
  refine first before.length (by simp only [List.length_append]; omega) ?_
  refine ⟨after ++ separator ++ rest, ?_⟩
  simp only [List.append_assoc, List.drop_left']

theorem Split.separate (split : Split separator text pieces closed) (nonempty : separator ≠ []) :
    ∀ piece ∈ pieces, ¬ separator <:+: piece := by
  induction split with
  | nothing => exact nofun
  | last _ absent =>
      intro piece member
      rw [List.mem_singleton.mp member]
      exact absent
  | closing first =>
      intro piece member
      rw [List.mem_singleton.mp member]
      exact first.not_infix nonempty
  | piece _ first _ ih =>
      intro piece member
      rcases List.mem_cons.mp member with rfl | later
      · exact first.not_infix nonempty
      · exact ih piece later

theorem Split.pieces_ne_nil (split : Split separator text pieces closed) (more : text ≠ []) :
    pieces ≠ [] := by
  cases split with
  | nothing => exact absurd rfl more
  | last _ _ => exact List.cons_ne_nil _ _
  | closing _ => exact List.cons_ne_nil _ _
  | piece _ _ _ => exact List.cons_ne_nil _ _

/-- **Joining the pieces** gives the text, up to a separator at its end. -/
theorem Split.intercalate (split : Split separator text pieces closed) :
    separator.intercalate pieces ++ (if closed then separator else []) = text := by
  induction split with
  | nothing => rfl
  | last _ _ => exact (List.append_nil _).trans List.intercalate_singleton
  | closing _ => exact congrArg (· ++ separator) List.intercalate_singleton
  | piece more _ behind ih =>
      rw [List.intercalate_cons_of_ne_nil (behind.pieces_ne_nil more), List.append_assoc, ih]

/-- Without an element that separates, the pieces are the text without this element. -/
theorem Split.flatten [DecidableEq α] {a : α} (split : Split [a] text pieces closed) :
    pieces.flatten = text.filter (· ≠ a) := by
  have others {piece : List α} (absent : ¬ [a] <:+: piece) : piece.filter (· ≠ a) = piece := by
    rw [List.filter_eq_self]
    intro b member
    rw [decide_eq_true_eq]
    rintro rfl
    exact absent ((List.singleton_infix_iff _ _).mpr member)
  have removed : [a].filter (· ≠ a) = [] := by simp
  have inner {piece rest : List α} (first : First [a] piece rest) :=
    others (first.not_infix (List.cons_ne_nil a []))
  induction split with
  | nothing => rfl
  | last _ absent => rw [others absent, List.flatten_singleton]
  | closing first =>
      rw [List.filter_append, inner first, removed, List.flatten_singleton, List.append_nil]
  | piece _ first _ ih =>
      rw [List.filter_append, List.filter_append, inner first, removed, List.append_nil,
        List.flatten_cons, ih]

end Splitting
