import EasyLua.Foundation.PartialMap

/-!
# Slots on loan

Owners take slots and give them back; the calls are logged, the latest first. Each owner
remembers at most one slot. When what the owners remember matches the log, no slot has two
owners, and none is given back that is not on loan.
-/

namespace Lease

/-- A slot is taken by an owner, or given back. -/
inductive Call (Slot Owner : Type*)
  | take (slot : Slot) (owner : Owner)
  | release (slot : Slot)

variable {Slot Owner : Type*} [DecidableEq Slot]

/-- The owner of a slot after the calls. -/
def holder : List (Call Slot Owner) → Slot → Option Owner
  | [], _ => none
  | .take taken owner :: earlier, slot => if slot = taken then some owner else holder earlier slot
  | .release released :: earlier, slot => if slot = released then none else holder earlier slot

/-- Only free slots are taken, and only slots on loan are given back. -/
def Proper : List (Call Slot Owner) → Prop
  | [] => True
  | .take slot _ :: earlier => holder earlier slot = none ∧ Proper earlier
  | .release slot :: earlier => (∃ owner, holder earlier slot = some owner) ∧ Proper earlier

/-- A slot that is given back was on loan. -/
theorem Proper.released {slot : Slot} {earlier : List (Call Slot Owner)} :
    ∀ {later : List (Call Slot Owner)}, Proper (later ++ .release slot :: earlier) →
      ∃ owner, holder earlier slot = some owner
  | [], proper => proper.1
  | .take _ _ :: _, proper => Proper.released proper.2
  | .release _ :: _, proper => Proper.released proper.2

/-- The log is proper, and the owners remember what they have on loan. -/
structure Matches (calls : List (Call Slot Owner)) (held : Owner → Option Slot) : Prop where
  proper : Proper calls
  holder_iff : ∀ slot owner, holder calls slot = some owner ↔ held owner = some slot

variable {calls : List (Call Slot Owner)} {held : Owner → Option Slot}

theorem Matches.empty (nothing : ∀ owner, held owner = none) :
    Matches ([] : List (Call Slot Owner)) held where
  proper := trivial
  holder_iff := by
    intro slot owner
    rw [nothing owner]
    constructor
    · intro absent
      cases absent
    · intro absent
      cases absent

/-- No slot is remembered by two owners. -/
theorem Matches.unique (matched : Matches calls held) {slot : Slot} {first second : Owner}
    (isFirst : held first = some slot) (isSecond : held second = some slot) : first = second := by
  have left := (matched.holder_iff slot first).mpr isFirst
  have right := (matched.holder_iff slot second).mpr isSecond
  exact Option.some.inj (left.symm.trans right)

/-- A slot that no owner remembers is free. -/
theorem Matches.free (matched : Matches calls held) {slot : Slot}
    (unknown : ∀ owner, held owner ≠ some slot) : holder calls slot = none := by
  cases found : holder calls slot with
  | none => rfl
  | some owner => exact absurd ((matched.holder_iff slot owner).mp found) (unknown owner)

variable [DecidableEq Owner]

/-- An owner without a slot takes a free one. -/
theorem Matches.take (matched : Matches calls held) {slot : Slot} {owner : Owner}
    (without : held owner = none) (unknown : ∀ other, held other ≠ some slot) :
    Matches (.take slot owner :: calls) (Function.update held owner (some slot)) where
  proper := ⟨matched.free unknown, matched.proper⟩
  holder_iff := by
    intro asked other
    unfold holder
    rw [PartialMap.bind_eq_some_iff]
    by_cases sameSlot : asked = slot
    · subst sameSlot
      rw [if_pos rfl]
      constructor
      · intro same
        exact Or.inl ⟨(Option.some.inj same).symm, rfl⟩
      · rintro (⟨rfl, _⟩ | ⟨_, old⟩)
        · rfl
        · exact absurd old (unknown other)
    · rw [if_neg sameSlot, matched.holder_iff]
      constructor
      · intro old
        refine Or.inr ⟨?_, old⟩
        rintro rfl
        cases without.symm.trans old
      · rintro (⟨_, rfl⟩ | ⟨_, old⟩)
        · exact absurd rfl sameSlot
        · exact old

/-- An owner gives its slot back. -/
theorem Matches.release (matched : Matches calls held) {slot : Slot} {owner : Owner}
    (holds : held owner = some slot) :
    Matches (.release slot :: calls) (Function.update held owner none) where
  proper := ⟨⟨owner, (matched.holder_iff slot owner).mpr holds⟩, matched.proper⟩
  holder_iff := by
    intro asked other
    unfold holder
    rw [PartialMap.unbind_eq_some_iff]
    by_cases sameSlot : asked = slot
    · subst sameSlot
      rw [if_pos rfl]
      constructor
      · intro absent
        cases absent
      · rintro ⟨different, old⟩
        exact absurd (matched.unique old holds) different
    · rw [if_neg sameSlot, matched.holder_iff]
      constructor
      · intro old
        refine ⟨?_, old⟩
        rintro rfl
        exact sameSlot (Option.some.inj (old.symm.trans holds))
      · exact And.right

end Lease
