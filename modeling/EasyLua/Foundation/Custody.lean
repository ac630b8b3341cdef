import EasyLua.Foundation.Leases

/-!
# Slots on loan and who keeps them

The calls tell which slots are on loan, and keepers divide these slots among themselves. A slot
can be passed on without a call, and one that is on loan and has no keeper is lost.
-/

namespace Lease

variable {Slot Keeper : Type*} [DecidableEq Slot]

/-- The slot is on loan after the calls. -/
def OnLoan (calls : List (Call Slot Unit)) (slot : Slot) : Prop := holder calls slot = some ()

variable {calls : List (Call Slot Unit)} {slot other : Slot}

instance : Decidable (OnLoan calls slot) :=
  inferInstanceAs (Decidable (holder calls slot = some ()))

@[simp] theorem onLoan_nil : ¬ OnLoan ([] : List (Call Slot Unit)) slot := by
  simp [OnLoan, holder]

@[simp] theorem onLoan_take :
    OnLoan (.take other () :: calls) slot ↔ slot = other ∨ OnLoan calls slot := by
  by_cases same : slot = other <;> simp [OnLoan, holder, same]

@[simp] theorem onLoan_release :
    OnLoan (.release other :: calls) slot ↔ slot ≠ other ∧ OnLoan calls slot := by
  by_cases same : slot = other <;> simp [OnLoan, holder, same]

theorem proper_take (proper : Proper calls) (free : ¬ OnLoan calls slot) :
    Proper (.take slot () :: calls) := by
  refine ⟨?_, proper⟩
  cases found : holder calls slot with
  | none => rfl
  | some owner => exact absurd found free

theorem proper_release (proper : Proper calls) (loaned : OnLoan calls slot) :
    Proper (.release slot :: calls) :=
  ⟨⟨(), loaned⟩, proper⟩

/-- The calls are proper, and each slot on loan has exactly one keeper. -/
structure Kept (calls : List (Call Slot Unit)) (held : Keeper → Option Slot) : Prop where
  proper : Proper calls
  unique : ∀ first second slot, held first = some slot → held second = some slot → first = second
  onLoan_iff : ∀ slot, OnLoan calls slot ↔ ∃ keeper, held keeper = some slot

variable {held : Keeper → Option Slot}

theorem Kept.empty (nothing : ∀ keeper, held keeper = none) :
    Kept ([] : List (Call Slot Unit)) held where
  proper := trivial
  unique := by simp [nothing]
  onLoan_iff := by simp [nothing]

/-- When no keeper has a slot, none is on loan. -/
theorem Kept.settled (kept : Kept calls held) (nothing : ∀ keeper, held keeper = none)
    (slot : Slot) : ¬ OnLoan calls slot := by
  simp [kept.onLoan_iff, nothing]

/-- A lost slot shows. -/
theorem Kept.not_of_lost (loaned : OnLoan calls slot) (lost : ∀ keeper, held keeper ≠ some slot) :
    ¬ Kept calls held := by
  intro kept
  obtain ⟨keeper, has⟩ := (kept.onLoan_iff slot).mp loaned
  exact lost keeper has

/-- A slot that is given back at once needs no keeper. -/
theorem Kept.borrow (kept : Kept calls held) (free : ¬ OnLoan calls slot) :
    Kept (.release slot :: .take slot () :: calls) held where
  proper := proper_release (proper_take kept.proper free) (by simp)
  unique := kept.unique
  onLoan_iff := by
    intro asked
    rw [← kept.onLoan_iff asked, onLoan_release, onLoan_take]
    constructor
    · rintro ⟨different, same | loaned⟩
      · exact absurd same different
      · exact loaned
    · intro loaned
      refine ⟨?_, Or.inr loaned⟩
      rintro rfl
      exact free loaned

variable [DecidableEq Keeper] {keeper giver receiver : Keeper}

/-- A keeper without a slot takes a free one. -/
theorem Kept.take (kept : Kept calls held) (without : held keeper = none)
    (free : ¬ OnLoan calls slot) :
    Kept (.take slot () :: calls) (Function.update held keeper (some slot)) where
  proper := proper_take kept.proper free
  unique := by
    have unknown : ∀ someone, held someone ≠ some slot := by
      intro someone has
      exact free ((kept.onLoan_iff slot).mpr ⟨someone, has⟩)
    intro first second asked
    rw [PartialMap.bind_eq_some_iff, PartialMap.bind_eq_some_iff]
    rintro (⟨rfl, rfl⟩ | ⟨_, isFirst⟩) (⟨rfl, same⟩ | ⟨_, isSecond⟩)
    · rfl
    · exact absurd isSecond (unknown second)
    · rw [← same] at isFirst
      exact absurd isFirst (unknown first)
    · exact kept.unique first second asked isFirst isSecond
  onLoan_iff := by
    intro asked
    simp only [onLoan_take, kept.onLoan_iff, PartialMap.bind_eq_some_iff]
    constructor
    · rintro (rfl | ⟨someone, has⟩)
      · exact ⟨keeper, Or.inl ⟨rfl, rfl⟩⟩
      · refine ⟨someone, Or.inr ⟨?_, has⟩⟩
        rintro rfl
        cases without.symm.trans has
    · rintro ⟨someone, ⟨_, rfl⟩ | ⟨_, has⟩⟩
      · exact Or.inl rfl
      · exact Or.inr ⟨someone, has⟩

/-- A keeper gives its slot back. -/
theorem Kept.release (kept : Kept calls held) (has : held keeper = some slot) :
    Kept (.release slot :: calls) (Function.update held keeper none) where
  proper := proper_release kept.proper ((kept.onLoan_iff slot).mpr ⟨keeper, has⟩)
  unique := by
    intro first second asked
    rw [PartialMap.unbind_eq_some_iff, PartialMap.unbind_eq_some_iff]
    rintro ⟨_, isFirst⟩ ⟨_, isSecond⟩
    exact kept.unique first second asked isFirst isSecond
  onLoan_iff := by
    intro asked
    simp only [onLoan_release, kept.onLoan_iff, PartialMap.unbind_eq_some_iff]
    constructor
    · rintro ⟨different, someone, hasAsked⟩
      refine ⟨someone, ?_, hasAsked⟩
      rintro rfl
      exact different (Option.some.inj (hasAsked.symm.trans has))
    · rintro ⟨someone, apart, hasAsked⟩
      refine ⟨?_, someone, hasAsked⟩
      rintro rfl
      exact apart (kept.unique someone keeper asked hasAsked has)

/-- A keeper passes its slot on to one without a slot. -/
theorem Kept.pass (kept : Kept calls held) (has : held giver = some slot)
    (without : held receiver = none) :
    Kept calls (Function.update (Function.update held giver none) receiver (some slot)) where
  proper := kept.proper
  unique := by
    intro first second asked
    simp only [PartialMap.bind_eq_some_iff, PartialMap.unbind_eq_some_iff]
    rintro (⟨rfl, rfl⟩ | ⟨_, notGiver, isFirst⟩) (⟨rfl, same⟩ | ⟨_, secondNotGiver, isSecond⟩)
    · rfl
    · exact absurd (kept.unique second giver slot isSecond has) secondNotGiver
    · rw [← same] at isFirst
      exact absurd (kept.unique first giver slot isFirst has) notGiver
    · exact kept.unique first second asked isFirst isSecond
  onLoan_iff := by
    intro asked
    simp only [kept.onLoan_iff, PartialMap.bind_eq_some_iff, PartialMap.unbind_eq_some_iff]
    constructor
    · rintro ⟨someone, hasAsked⟩
      by_cases same : someone = giver
      · subst same
        exact ⟨receiver, Or.inl ⟨rfl, Option.some.inj (has.symm.trans hasAsked)⟩⟩
      · refine ⟨someone, Or.inr ⟨?_, same, hasAsked⟩⟩
        rintro rfl
        cases without.symm.trans hasAsked
    · rintro ⟨someone, ⟨_, rfl⟩ | ⟨_, _, hasAsked⟩⟩
      · exact ⟨giver, has⟩
      · exact ⟨someone, hasAsked⟩

end Lease
