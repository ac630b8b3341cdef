import Mathlib.Data.List.Basic
import Mathlib.Logic.Function.Basic

/-!
# Shared ownership

A thing is made with one owner. Others join as long as it has one, owners leave, and when the
last one leaves the thing is disposed of. So it is disposed of at most once, and never while
somebody owns it.
-/

namespace Sharing

variable {Thing Owner : Type*}

/-- The owners of the things that were made. -/
structure Pool (Thing Owner : Type*) where
  owners : Thing → Option (List Owner)

/-- Nothing was made yet. -/
def Pool.empty : Pool Thing Owner := ⟨fun _ => none⟩

variable [DecidableEq Thing]

/-- A new thing. -/
def Pool.make (pool : Pool Thing Owner) (thing : Thing) (owner : Owner) :
    Option (Pool Thing Owner) :=
  match pool.owners thing with
  | some _ => none
  | none => some ⟨Function.update pool.owners thing (some [owner])⟩

/-- One owner more for a thing that has one. -/
def Pool.join (pool : Pool Thing Owner) (thing : Thing) (owner : Owner) :
    Option (Pool Thing Owner) :=
  match pool.owners thing with
  | some (first :: rest) =>
      some ⟨Function.update pool.owners thing (some (owner :: first :: rest))⟩
  | some [] => none
  | none => none

/-- An owner leaves; the answer is whether it was the last. -/
def Pool.leave [DecidableEq Owner] (pool : Pool Thing Owner) (thing : Thing) (owner : Owner) :
    Option (Pool Thing Owner × Bool) :=
  match pool.owners thing with
  | some owners =>
      if owner ∈ owners then
        some (⟨Function.update pool.owners thing (some (owners.erase owner))⟩,
          (owners.erase owner).isEmpty)
      else none
  | none => none

/-- The things that were disposed of are those that have no owner left, each of them once. -/
structure Accounts (disposed : List Thing) (pool : Pool Thing Owner) : Prop where
  nodup : disposed.Nodup
  mem_iff : ∀ thing, thing ∈ disposed ↔ pool.owners thing = some []

variable {disposed : List Thing} {pool next : Pool Thing Owner} {thing : Thing} {owner : Owner}

omit [DecidableEq Thing] in
theorem accounts_empty : Accounts [] (Pool.empty : Pool Thing Owner) where
  nodup := List.nodup_nil
  mem_iff := by
    intro thing
    constructor
    · intro member
      cases member
    · intro absent
      cases absent

omit [DecidableEq Thing] in
/-- A thing with an owner was not disposed of. -/
theorem Accounts.not_mem (accounts : Accounts disposed pool) {owners : List Owner}
    (owned : pool.owners thing = some owners) (member : owner ∈ owners) : thing ∉ disposed := by
  intro gone
  have none_ := (accounts.mem_iff thing).mp gone
  cases owned.symm.trans none_
  cases member

/-- New owners of one thing that has, or gets, some. -/
theorem Accounts.update (accounts : Accounts disposed pool) {owners : List Owner}
    (kept : thing ∉ disposed) (some_ : owners ≠ []) :
    Accounts disposed ⟨Function.update pool.owners thing (some owners)⟩ where
  nodup := accounts.nodup
  mem_iff := by
    intro other
    by_cases same : other = thing
    · subst same
      simp [kept, some_]
    · simp [same, accounts.mem_iff other]

theorem make_eq_some (made : pool.make thing owner = some next) :
    pool.owners thing = none ∧ next = ⟨Function.update pool.owners thing (some [owner])⟩ := by
  unfold Pool.make at made
  cases found : pool.owners thing with
  | some owners =>
      rw [found] at made
      cases made
  | none =>
      rw [found] at made
      exact ⟨rfl, (Option.some.inj made).symm⟩

theorem join_eq_some (joined : pool.join thing owner = some next) :
    ∃ first rest, pool.owners thing = some (first :: rest) ∧
      next = ⟨Function.update pool.owners thing (some (owner :: first :: rest))⟩ := by
  unfold Pool.join at joined
  split at joined
  · next first rest found => exact ⟨first, rest, found, (Option.some.inj joined).symm⟩
  · cases joined
  · cases joined

theorem Accounts.make (accounts : Accounts disposed pool)
    (made : pool.make thing owner = some next) : Accounts disposed next := by
  obtain ⟨fresh, rfl⟩ := make_eq_some made
  apply accounts.update
  · intro gone
    have none_ := (accounts.mem_iff thing).mp gone
    cases fresh.symm.trans none_
  · simp

theorem Accounts.join (accounts : Accounts disposed pool)
    (joined : pool.join thing owner = some next) : Accounts disposed next := by
  obtain ⟨first, rest, found, rfl⟩ := join_eq_some joined
  apply accounts.update
  · exact accounts.not_mem found List.mem_cons_self
  · simp

section Leaving

variable [DecidableEq Owner]

theorem leave_eq_some {last : Bool} (left : pool.leave thing owner = some (next, last)) :
    ∃ owners, pool.owners thing = some owners ∧ owner ∈ owners ∧
      next = ⟨Function.update pool.owners thing (some (owners.erase owner))⟩ ∧
      (last = true ↔ owners = [owner]) := by
  unfold Pool.leave at left
  cases found : pool.owners thing with
  | none =>
      rw [found] at left
      cases left
  | some owners =>
      simp only [found] at left
      by_cases member : owner ∈ owners
      · rw [if_pos member] at left
        cases left
        refine ⟨owners, rfl, member, rfl, ?_⟩
        rw [List.isEmpty_iff, List.erase_eq_nil_iff]
        constructor
        · rintro (empty | alone)
          · rw [empty] at member
            cases member
          · exact alone
        · exact Or.inr
      · rw [if_neg member] at left
        cases left

/-- Whoever leaves last disposes of the thing. -/
theorem Accounts.leave (accounts : Accounts disposed pool) {last : Bool}
    (left : pool.leave thing owner = some (next, last)) :
    Accounts (if last then thing :: disposed else disposed) next := by
  obtain ⟨owners, found, member, rfl, last_iff⟩ := leave_eq_some left
  have kept := accounts.not_mem found member
  cases last with
  | true =>
      obtain rfl := last_iff.mp rfl
      refine ⟨List.nodup_cons.mpr ⟨kept, accounts.nodup⟩, ?_⟩
      intro other
      by_cases same : other = thing
      · subst same
        simp
      · simp [same, accounts.mem_iff other]
  | false =>
      apply accounts.update kept
      intro empty
      rcases List.erase_eq_nil_iff.mp empty with none_ | alone
      · rw [none_] at member
        cases member
      · exact absurd (last_iff.mpr alone) Bool.false_ne_true

end Leaving

end Sharing
