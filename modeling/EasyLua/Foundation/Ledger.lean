import Mathlib.Data.List.Nodup
import Mathlib.Logic.Function.Basic

/-!
# Items that are in exactly one place

A ledger assigns to each place the items it holds, in order. It is exact for a
list of issued items when the places hold precisely these items and no item is
held twice, neither within a place nor in two of them. Delivering a fresh item
to a place and moving the first item of one place to the end of another keep a
ledger exact.
-/

namespace Ledger

variable {Place Item : Type*}

/-- The issued items are exactly those held, and each is held once. -/
structure Exact (issued : List Item) (held : Place → List Item) : Prop where
  placed : ∀ item ∈ issued, ∃ place, item ∈ held place
  issued_of_mem : ∀ place, ∀ item ∈ held place, item ∈ issued
  nodup : ∀ place, (held place).Nodup
  place_unique : ∀ item first second, item ∈ held first → item ∈ held second → first = second

variable {issued : List Item} {held : Place → List Item}

variable [DecidableEq Place]

/-- The items held after one place has received an item. -/
theorem mem_update_append {place other : Place} {item old : Item} :
    old ∈ Function.update held place (held place ++ [item]) other ↔
      old ∈ held other ∨ (other = place ∧ old = item) := by
  by_cases same : other = place
  · subst other
    simp only [Function.update_self, List.mem_append, List.mem_singleton, true_and]
  · simp only [Function.update_of_ne same, same, false_and, or_false]

/-- A fresh item is issued by appending it to one place. -/
theorem Exact.deliver (exact : Exact issued held) {item : Item} (fresh : item ∉ issued)
    (place : Place) :
    Exact (issued ++ [item]) (Function.update held place (held place ++ [item])) where
  placed := by
    intro old member
    rcases List.mem_append.mp member with before | new
    · obtain ⟨other, inside⟩ := exact.placed old before
      exact ⟨other, mem_update_append.mpr (Or.inl inside)⟩
    · exact ⟨place, mem_update_append.mpr (Or.inr ⟨rfl, List.mem_singleton.mp new⟩)⟩
  issued_of_mem := by
    intro other old inside
    rcases mem_update_append.mp inside with before | ⟨_, rfl⟩
    · exact List.mem_append_left _ (exact.issued_of_mem other old before)
    · exact List.mem_append_right _ (List.mem_singleton_self old)
  nodup := by
    intro other
    by_cases same : other = place
    · subst other
      rw [Function.update_self]
      refine List.nodup_append.mpr ⟨exact.nodup place, List.nodup_singleton item, ?_⟩
      intro old inside new last equal
      cases List.mem_singleton.mp last
      exact fresh (equal ▸ exact.issued_of_mem place old inside)
    · rw [Function.update_of_ne same]
      exact exact.nodup other
  place_unique := by
    intro old first second left right
    rcases mem_update_append.mp left with leftOld | ⟨leftIs, rfl⟩
    · rcases mem_update_append.mp right with rightOld | ⟨_, rfl⟩
      · exact exact.place_unique old first second leftOld rightOld
      · exact absurd (exact.issued_of_mem first old leftOld) fresh
    · rcases mem_update_append.mp right with rightOld | ⟨rightIs, _⟩
      · exact absurd (exact.issued_of_mem second old rightOld) fresh
      · rw [leftIs, rightIs]

/-- The first item of a place leaves it. -/
theorem mem_update_tail {place other : Place} {item old : Item} {rest : List Item}
    (head : held place = item :: rest) (once : (held place).Nodup) :
    old ∈ Function.update held place rest other ↔
      old ∈ held other ∧ ¬ (other = place ∧ old = item) := by
  by_cases same : other = place
  · subst other
    rw [head, List.nodup_cons] at once
    rw [Function.update_self, head, List.mem_cons]
    constructor
    · intro inside
      exact ⟨Or.inr inside, fun equal => once.1 (equal.2 ▸ inside)⟩
    · rintro ⟨rfl | inside, different⟩
      · exact absurd ⟨rfl, rfl⟩ different
      · exact inside
  · simp only [Function.update_of_ne same, same, false_and, not_false_eq_true, and_true]

/-- Moving the first item of a place to the end of another keeps the ledger exact. -/
theorem Exact.move (exact : Exact issued held) {source target : Place} {item : Item}
    {rest : List Item} (different : target ≠ source) (head : held source = item :: rest) :
    Exact issued (Function.update (Function.update held source rest) target
      (held target ++ [item])) := by
  have atSource : item ∈ held source := head ▸ List.mem_cons_self
  have member : ∀ other old,
      old ∈ Function.update (Function.update held source rest) target (held target ++ [item])
        other ↔ (old ≠ item ∧ old ∈ held other) ∨ (old = item ∧ other = target) := by
    intro other old
    by_cases toTarget : other = target
    · subst other
      rw [Function.update_self, List.mem_append, List.mem_singleton]
      by_cases moved : old = item
      · subst old
        simp
      · simp [moved]
    · rw [Function.update_of_ne toTarget, mem_update_tail head (exact.nodup source)]
      by_cases moved : old = item
      · subst old
        constructor
        · intro kept
          obtain ⟨inside, notSource⟩ := kept
          exact absurd ⟨exact.place_unique item other source inside atSource, rfl⟩ notSource
        · rintro (⟨notItem, _⟩ | ⟨_, same⟩)
          · exact absurd rfl notItem
          · exact absurd same toTarget
      · simp [moved]
  constructor
  · intro old known
    by_cases moved : old = item
    · exact ⟨target, (member target old).mpr (Or.inr ⟨moved, rfl⟩)⟩
    · obtain ⟨place, inside⟩ := exact.placed old known
      exact ⟨place, (member place old).mpr (Or.inl ⟨moved, inside⟩)⟩
  · intro other old inside
    rcases (member other old).mp inside with ⟨_, before⟩ | ⟨rfl, _⟩
    · exact exact.issued_of_mem other old before
    · exact exact.issued_of_mem source old atSource
  · intro other
    by_cases toTarget : other = target
    · subst other
      rw [Function.update_self]
      refine List.nodup_append.mpr ⟨exact.nodup target, List.nodup_singleton item, ?_⟩
      intro old inside new last equal
      cases List.mem_singleton.mp last
      exact different (exact.place_unique item target source (equal ▸ inside) atSource)
    · rw [Function.update_of_ne toTarget]
      by_cases fromSource : other = source
      · subst other
        rw [Function.update_self]
        have once := exact.nodup source
        rw [head] at once
        exact once.of_cons
      · rw [Function.update_of_ne fromSource]
        exact exact.nodup other
  · intro old first second left right
    rcases (member first old).mp left with ⟨notItem, leftOld⟩ | ⟨rfl, rfl⟩ <;>
      rcases (member second old).mp right with ⟨notItem', rightOld⟩ | ⟨isItem, rfl⟩
    · exact exact.place_unique old first second leftOld rightOld
    · exact absurd isItem notItem
    · exact absurd rfl notItem'
    · rfl

end Ledger
