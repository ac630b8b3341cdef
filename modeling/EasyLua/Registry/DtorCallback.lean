import EasyLua.Foundation.Machine
import EasyLua.Foundation.PartialMap
import Mathlib.Algebra.Order.Ring.Int

/-!
# Destructor callbacks

`DtorCallback` of `dtorCallback.h`. A callback is not called by name: it is the deleter of a
`shared_ptr` to nothing that only `pointerMap_` holds, so it is invoked by whatever drops
that entry. Every operation therefore also returns the callbacks that it invokes.
-/

namespace EasyLua

/-- `DtorCallback`. -/
structure DtorCallback (Callback : Type) where
  nextId_ : Int := 0
  pointerMap_ : Std.TreeMap Int Callback compare := ∅

namespace DtorCallback

variable {Callback : Type}

/-- `DtorCallback::addDtorCallback`; no result when `++nextId_` overflows. -/
def addDtorCallback (object : DtorCallback Callback) (f : Callback) :
    Option (Int × DtorCallback Callback × List Callback) :=
  if object.nextId_ + 1 < 2 ^ 31 then
    let nextId_ := object.nextId_ + 1
    some (nextId_, { nextId_, pointerMap_ := object.pointerMap_.insert nextId_ f },
      -- the assignment releases the pointer that it overwrites
      object.pointerMap_[nextId_]?.toList)
  else none

/-- `DtorCallback::removeDtorCallback`. -/
def removeDtorCallback (object : DtorCallback Callback) (id : Int) :
    DtorCallback Callback × List Callback :=
  ({ object with pointerMap_ := object.pointerMap_.erase id }, object.pointerMap_[id]?.toList)

/-- The destruction of the object, which releases every entry. -/
def destruct (object : DtorCallback Callback) : List Callback :=
  PartialMap.values object.pointerMap_

/-- The ids from `nextId_` on are free. -/
def Fresh (object : DtorCallback Callback) : Prop :=
  ∀ id, object.nextId_ < id → object.pointerMap_[id]? = none

theorem fresh_default : Fresh ({} : DtorCallback Callback) :=
  fun _ _ => Std.TreeMap.getElem?_emptyc

/-- What `addDtorCallback` does: it takes the next id, which is free. -/
theorem addDtorCallback_eq_some {object next : DtorCallback Callback} (fresh : Fresh object)
    {f : Callback} {id : Int} {invoked : List Callback}
    (added : object.addDtorCallback f = some (id, next, invoked)) :
    id = object.nextId_ + 1 ∧ next.nextId_ = id ∧ invoked = [] ∧ Fresh next ∧
      ∀ other g, next.pointerMap_[other]? = some g ↔
        (other = id ∧ f = g) ∨ (other ≠ id ∧ object.pointerMap_[other]? = some g) := by
  unfold addDtorCallback at added
  split at added
  · obtain ⟨rfl, rfl, rfl⟩ := Option.some.inj added
    have free : object.pointerMap_[object.nextId_ + 1]? = none := fresh _ (by omega)
    refine ⟨rfl, rfl, ?_, ?_, fun other g => PartialMap.insert_eq_some_iff⟩
    · rw [free]
      rfl
    · intro later above
      dsimp only at above ⊢
      rw [Option.eq_none_iff_forall_ne_some]
      intro g found
      rcases PartialMap.insert_eq_some_iff.mp found with ⟨rfl, _⟩ | ⟨_, found⟩
      · omega
      · rw [fresh later (by omega)] at found
        cases found
  · cases added

/-- `addDtorCallback` only fails when the ids are used up. -/
theorem exists_addDtorCallback {object : DtorCallback Callback} (f : Callback)
    (small : object.nextId_ + 1 < 2 ^ 31) :
    ∃ id next invoked, object.addDtorCallback f = some (id, next, invoked) :=
  ⟨_, _, _, if_pos small⟩

theorem mem_destruct_iff {object : DtorCallback Callback} {f : Callback} :
    f ∈ object.destruct ↔ ∃ id : Int, object.pointerMap_[id]? = some f :=
  PartialMap.mem_values_iff

/-! ## Histories -/

/-- One call on the object. -/
inductive Call
  | add
  | remove (id : Int)
  deriving DecidableEq

/-- The object; the ids that were returned for the callbacks, which are numbered in the order
in which they were added; the callbacks whose id was passed to `removeDtorCallback` after it
was returned; and all invocations so far. -/
structure World where
  object : DtorCallback Nat
  returned : List Int
  removed : Nat → Bool
  invoked : List Nat

/-- One step; no result when the ids are used up. -/
def step (world : World) : Call → Option World
  | .add =>
      match world.object.addDtorCallback world.returned.length with
      | none => none
      | some (id, object, invoked) =>
          some { world with
            object
            returned := world.returned ++ [id]
            invoked := world.invoked ++ invoked }
  | .remove id =>
      let (object, invoked) := world.object.removeDtorCallback id
      some { world with
        object
        removed := fun k => world.removed k || world.returned[k]? = some id
        invoked := world.invoked ++ invoked }

/-- The histories of an object. -/
def machine : Machine World Call where
  init := {
    object := {}
    returned := []
    removed := fun _ => false
    invoked := [] }
  step := step

/-- The invocations up to the end of the object's destruction. -/
def World.final (world : World) : List Nat := world.invoked ++ world.object.destruct

/-- The ids count the callbacks, the map holds those that were not removed, and those that
were removed have been invoked. -/
structure Sound (world : World) : Prop where
  ids : ∀ k < world.returned.length, world.returned[k]? = some ((k : Int) + 1)
  next : world.object.nextId_ = world.returned.length
  map : ∀ (id : Int) k, world.object.pointerMap_[id]? = some k ↔
    id = (k : Int) + 1 ∧ k < world.returned.length ∧ world.removed k = false
  removed : ∀ k, world.removed k = true → k < world.returned.length
  invoked : ∀ k, world.invoked.count k = if world.removed k then 1 else 0

variable {world after : World}

theorem count_toList (entry : Option Nat) (k : Nat) :
    entry.toList.count k = if entry = some k then 1 else 0 := by
  cases entry with
  | none => rfl
  | some other =>
      rw [Option.toList_some, List.count_singleton]
      by_cases same : other = k
      · subst same
        simp only [beq_self_eq_true]
      · simp only [beq_iff_eq, Option.some.injEq]

theorem Sound.fresh (sound : Sound world) : Fresh world.object := by
  intro id above
  rw [Option.eq_none_iff_forall_ne_some]
  intro k found
  obtain ⟨rfl, below, _⟩ := (sound.map id k).mp found
  rw [sound.next] at above
  omega

/-- Which callbacks an id names. -/
theorem Sound.returned_iff (sound : Sound world) {id : Int} {k : Nat} :
    world.returned[k]? = some id ↔ k < world.returned.length ∧ id = (k : Int) + 1 := by
  constructor
  · intro found
    obtain ⟨below, _⟩ := List.getElem?_eq_some_iff.mp found
    rw [sound.ids k below] at found
    exact ⟨below, (Option.some.inj found).symm⟩
  · rintro ⟨below, rfl⟩
    exact sound.ids k below

theorem sound_init : Sound machine.init where
  ids := fun _ below => absurd below (Nat.not_lt_zero _)
  next := rfl
  map := by
    intro id k
    refine ⟨fun found => ?_, fun ⟨_, below, _⟩ => absurd below (Nat.not_lt_zero _)⟩
    rw [show machine.init.object.pointerMap_[id]? = none from Std.TreeMap.getElem?_emptyc] at found
    cases found
  removed := fun _ removed => by cases removed
  invoked := fun _ => rfl

theorem Sound.add (sound : Sound world) (stepped : step world .add = some after) :
    Sound after ∧ after.removed = world.removed ∧
      after.returned.length = world.returned.length + 1 := by
  unfold step at stepped
  dsimp only at stepped
  split at stepped
  · cases stepped
  · rename_i id object invoked added
    cases Option.some.inj stepped
    obtain ⟨isId, isNext, rfl, _, entries⟩ := addDtorCallback_eq_some sound.fresh added
    rw [sound.next] at isId
    subst isId
    refine ⟨⟨?_, ?_, ?_, ?_, ?_⟩, rfl, by simp⟩
    · intro k below
      rw [List.length_append] at below
      dsimp only
      rcases Nat.lt_succ_iff_lt_or_eq.mp below with old | rfl
      · rw [List.getElem?_append_left old]
        exact sound.ids k old
      · exact List.getElem?_concat_length
    · dsimp only
      rw [isNext, List.length_append]
      rfl
    · intro id k
      dsimp only
      rw [entries id k, sound.map id k, List.length_append, List.length_singleton]
      constructor
      · rintro (⟨rfl, rfl⟩ | ⟨_, isId, below, kept⟩)
        · refine ⟨rfl, Nat.lt_succ_self _, ?_⟩
          rw [Bool.eq_false_iff]
          exact fun removed => Nat.lt_irrefl _ (sound.removed _ removed)
        · exact ⟨isId, Nat.lt_succ_of_lt below, kept⟩
      · rintro ⟨rfl, below, kept⟩
        rcases Nat.lt_succ_iff_lt_or_eq.mp below with old | rfl
        · exact Or.inr ⟨by omega, rfl, old, kept⟩
        · exact Or.inl ⟨rfl, rfl⟩
    · intro k removed
      dsimp only
      rw [List.length_append]
      exact Nat.lt_succ_of_lt (sound.removed k removed)
    · intro k
      dsimp only
      rw [List.append_nil]
      exact sound.invoked k

/-- A removal invokes the callback that it removes. -/
theorem Sound.remove (sound : Sound world) {id : Int}
    (stepped : step world (.remove id) = some after) :
    Sound after ∧ after.returned = world.returned ∧
      ∀ k, after.removed k = true ↔ world.removed k = true ∨
        (k < world.returned.length ∧ id = (k : Int) + 1) := by
  cases Option.some.inj stepped
  have removed : ∀ k, (world.removed k || decide (world.returned[k]? = some id)) = true ↔
      world.removed k = true ∨ (k < world.returned.length ∧ id = (k : Int) + 1) := by
    intro k
    rw [Bool.or_eq_true, decide_eq_true_eq, sound.returned_iff]
  refine ⟨⟨sound.ids, sound.next, ?_, ?_, ?_⟩, rfl, removed⟩
  · intro other k
    dsimp only [removeDtorCallback]
    rw [PartialMap.erase_eq_some_iff, sound.map other k, Bool.or_eq_false_iff,
      decide_eq_false_iff_not, sound.returned_iff]
    constructor
    · rintro ⟨different, rfl, below, kept⟩
      exact ⟨rfl, below, kept, fun ⟨_, same⟩ => different same.symm⟩
    · rintro ⟨rfl, below, kept, missed⟩
      exact ⟨fun same => missed ⟨below, same.symm⟩, rfl, below, kept⟩
  · intro k isRemoved
    rcases (removed k).mp isRemoved with before | ⟨below, _⟩
    · exact sound.removed k before
    · exact below
  · intro k
    dsimp only [removeDtorCallback]
    rw [List.count_append, sound.invoked k, count_toList, if_congr (sound.map id k) rfl rfl,
      if_congr (removed k) rfl rfl]
    by_cases before : world.removed k = true
    · simp only [before, if_true, Bool.true_eq_false, and_false, if_false, true_or]
    · rw [Bool.not_eq_true] at before
      simp only [before, Bool.false_eq_true, if_false, false_or, and_true, Nat.zero_add]
      exact if_congr and_comm rfl rfl

/-- How often `addDtorCallback` is called. -/
def adds (calls : List Call) : Nat := calls.count .add

/-- `removeDtorCallback` is called with an id that has been returned. -/
def Removes (calls : List Call) (id : Int) : Prop :=
  ∃ first second, calls = first ++ .remove id :: second ∧ 1 ≤ id ∧ id ≤ adds first

theorem Removes.least {calls : List Call} {id : Int} (removes : Removes calls id) : 1 ≤ id := by
  obtain ⟨_, _, _, least, _⟩ := removes
  exact least

theorem removes_concat {calls : List Call} {call : Call} {id : Int} :
    Removes (calls ++ [call]) id ↔
      Removes calls id ∨ (call = .remove id ∧ 1 ≤ id ∧ id ≤ adds calls) := by
  constructor
  · rintro ⟨first, second, split, least, most⟩
    rcases List.eq_nil_or_concat second with rfl | ⟨initial, last, rfl⟩
    · obtain ⟨rfl, same⟩ := List.append_inj' split rfl
      exact Or.inr ⟨List.singleton_inj.mp same, least, most⟩
    · rw [List.concat_eq_append] at split
      have ends : calls ++ [call] = (first ++ .remove id :: initial) ++ [last] := by
        rw [split, List.append_assoc, List.cons_append]
      obtain ⟨rfl, _⟩ := List.append_inj' ends rfl
      exact Or.inl ⟨first, initial, rfl, least, most⟩
  · rintro (⟨first, second, rfl, least, most⟩ | ⟨rfl, least, most⟩)
    · exact ⟨first, second ++ [call], by rw [List.append_assoc]; rfl, least, most⟩
    · exact ⟨calls, [], rfl, least, most⟩

theorem sound_step (sound : Sound world) {call : Call} (stepped : step world call = some after) :
    Sound after := by
  cases call with
  | add => exact (sound.add stepped).1
  | remove id => exact (sound.remove stepped).1

theorem sound_run (calls : List Call) (world : World) (ran : machine.run calls = some world) :
    Sound world :=
  machine.run_invariant Sound sound_init (fun _ _ _ sound stepped => sound_step sound stepped)
    calls world ran

/-- What has been returned and removed is read off the calls. -/
theorem removed_run (calls : List Call) : ∀ world, machine.run calls = some world →
    Sound world ∧ world.returned.length = adds calls ∧
      ∀ k, world.removed k = true ↔ Removes calls ((k : Int) + 1) := by
  apply machine.run_history_invariant fun calls world => Sound world ∧
    world.returned.length = adds calls ∧
      ∀ k, world.removed k = true ↔ Removes calls ((k : Int) + 1)
  · refine ⟨sound_init, rfl, fun k => ⟨fun removed => absurd removed Bool.false_ne_true, ?_⟩⟩
    rintro ⟨first, second, split, _⟩
    exact absurd split.symm (List.append_ne_nil_of_right_ne_nil _ (List.cons_ne_nil _ _))
  · rintro calls world call after ⟨sound, length, removed⟩ stepped
    refine ⟨sound_step sound stepped, ?_⟩
    cases call with
    | add =>
        obtain ⟨_, sameRemoved, longer⟩ := sound.add stepped
        refine ⟨?_, fun k => ?_⟩
        · rw [longer, length]
          unfold adds
          rw [List.count_append]
          rfl
        · rw [sameRemoved, removed k, removes_concat]
          simp only [reduceCtorEq, false_and, or_false]
    | remove id =>
        obtain ⟨_, sameReturned, more⟩ := sound.remove stepped
        refine ⟨?_, fun k => ?_⟩
        · rw [sameReturned, length]
          unfold adds
          rw [List.count_append]
          rfl
        · rw [more k, removed k, removes_concat, length]
          refine or_congr_right ⟨?_, ?_⟩
          · rintro ⟨below, rfl⟩
            exact ⟨rfl, by omega, by omega⟩
          · rintro ⟨same, least, most⟩
            cases Call.remove.inj same
            exact ⟨by omega, rfl⟩

/-- Fewer than 2^31 calls of `addDtorCallback` all return. -/
theorem exists_run (calls : List Call) (few : adds calls < 2 ^ 31) :
    ∃ world, machine.run calls = some world := by
  induction calls using List.reverseRecOn with
  | nil => exact ⟨_, rfl⟩
  | append_singleton calls call ih =>
      unfold adds at few
      rw [List.count_append] at few
      obtain ⟨world, ran⟩ := ih (Nat.lt_of_le_of_lt (Nat.le_add_right _ _) few)
      rw [machine.run_concat, ran]
      cases call with
      | remove id => exact ⟨_, rfl⟩
      | add =>
          obtain ⟨sound, length, _⟩ := removed_run calls world ran
          have one : [Call.add].count .add = 1 := rfl
          have small : world.object.nextId_ + 1 < 2 ^ 31 := by
            rw [sound.next, length]
            unfold adds
            omega
          obtain ⟨id, object, invoked, added⟩ :=
            exists_addDtorCallback world.returned.length small
          refine ⟨{ world with
            object
            returned := world.returned ++ [id]
            invoked := world.invoked ++ invoked }, ?_⟩
          dsimp only [Option.bind_some, machine, step]
          rw [added]

/-- Every callback has been invoked once when the object has been destroyed. -/
theorem Sound.count_final (sound : Sound world) {k : Nat} (below : k < world.returned.length) :
    world.final.count k = 1 := by
  unfold World.final
  rw [List.count_append, sound.invoked k]
  have once : world.object.destruct.Nodup := by
    apply PartialMap.nodup_values
    intro id other k found otherFound
    rw [((sound.map id k).mp found).1, ((sound.map other k).mp otherFound).1]
  by_cases removed : world.removed k = true
  · rw [if_pos removed, List.count_eq_zero.mpr]
    intro member
    obtain ⟨id, found⟩ := mem_destruct_iff.mp member
    obtain ⟨_, _, kept⟩ := (sound.map id k).mp found
    rw [kept] at removed
    cases removed
  · rw [if_neg removed, Nat.zero_add, List.Nodup.count once, if_pos]
    rw [mem_destruct_iff]
    exact ⟨_, (sound.map _ k).mpr ⟨rfl, below, Bool.eq_false_iff.mpr removed⟩⟩

/-- The callbacks of an object on which the calls were made, and which is destroyed then, are
invoked when they should be. -/
structure Timely (calls : List Call) : Prop where
  /-- A callback that was not removed is invoked once, by the destruction. -/
  kept : ∀ world, machine.run calls = some world →
    ∀ k < world.returned.length, world.removed k = false →
      world.invoked.count k = 0 ∧ world.final.count k = 1
  /-- A callback that was removed is never invoked. -/
  removed : ∀ world, machine.run calls = some world →
    ∀ k, world.removed k = true → world.final.count k = 0
  /-- The removal of an id that names no callback, or a removed one, does nothing. -/
  unknown : ∀ first id, first ++ [.remove id] <+: calls →
    ∀ world, machine.run first = some world →
      (∀ k, world.returned[k]? = some id → world.removed k = true) →
      ∃ after, step world (.remove id) = some after ∧ after.invoked = world.invoked ∧
        after.returned = world.returned ∧ after.removed = world.removed ∧
        after.object.nextId_ = world.object.nextId_ ∧
        ∀ other : Int, after.object.pointerMap_[other]? = world.object.pointerMap_[other]?

theorem Sound.unknown (sound : Sound world) {id : Int}
    (unknown : ∀ k, world.returned[k]? = some id → world.removed k = true) :
    ∃ after, step world (.remove id) = some after ∧ after.invoked = world.invoked ∧
      after.returned = world.returned ∧ after.removed = world.removed ∧
      after.object.nextId_ = world.object.nextId_ ∧
      ∀ other : Int, after.object.pointerMap_[other]? = world.object.pointerMap_[other]? := by
  have absent : world.object.pointerMap_[id]? = none := by
    rw [Option.eq_none_iff_forall_ne_some]
    intro k found
    obtain ⟨isId, below, kept⟩ := (sound.map id k).mp found
    rw [unknown k (sound.returned_iff.mpr ⟨below, isId⟩)] at kept
    cases kept
  refine ⟨_, rfl, ?_, rfl, ?_, rfl, ?_⟩
  · dsimp only [removeDtorCallback]
    rw [absent, Option.toList_none, List.append_nil]
  · funext k
    dsimp only
    by_cases named : world.returned[k]? = some id
    · rw [unknown k named, Bool.true_or]
    · rw [decide_eq_false named, Bool.or_false]
  · intro other
    apply Option.ext
    intro k
    dsimp only [removeDtorCallback]
    rw [PartialMap.erase_eq_some_iff, and_iff_right_iff_imp]
    rintro found rfl
    rw [absent] at found
    cases found

/-- **The callbacks are invoked when they should be** if and only if `removeDtorCallback` is
never called with an id that was returned: it invokes the callback that it removes. -/
theorem timely_iff (calls : List Call) (few : adds calls < 2 ^ 31) :
    ((∃ world, machine.run calls = some world) ∧ Timely calls) ↔ ∀ id, ¬ Removes calls id := by
  constructor
  · rintro ⟨⟨world, ran⟩, timely⟩ id removes
    obtain ⟨sound, _, removed⟩ := removed_run calls world ran
    have least := removes.least
    obtain ⟨k, rfl⟩ : ∃ k : Nat, id = (k : Int) + 1 := ⟨(id - 1).toNat, by omega⟩
    have isRemoved := (removed k).mpr removes
    have never := timely.removed world ran k isRemoved
    rw [sound.count_final (sound.removed k isRemoved)] at never
    cases never
  · intro none
    refine ⟨exists_run calls few, ?_, ?_, ?_⟩
    · intro world ran k below kept
      have sound := sound_run calls world ran
      refine ⟨?_, sound.count_final below⟩
      rw [sound.invoked k, kept]
      rfl
    · intro world ran k isRemoved
      obtain ⟨_, _, removed⟩ := removed_run calls world ran
      exact absurd ((removed k).mp isRemoved) (none _)
    · intro first id _ world ran
      exact (sound_run first world ran).unknown

/-- The removal of an id that was never returned does no harm. -/
theorem timely_iff_unknown :
    ((∃ world, machine.run [.add, .remove 7] = some world) ∧ Timely [.add, .remove 7]) ↔
      ∀ id, ¬ Removes [.add, .remove 7] id :=
  timely_iff [.add, .remove 7] (by decide)

/-- A callback that is removed right after it was added has been invoked. -/
theorem not_timely_removed : ¬ Timely [.add, .remove 1] := by
  intro timely
  have observed : (machine.run [.add, .remove 1]).map
      (fun world => (world.removed 0, world.final)) = some (true, [0]) := by rfl
  obtain ⟨world, ran, isFinal⟩ := Option.map_eq_some_iff.mp observed
  obtain ⟨removed, final⟩ := Prod.mk.inj isFinal
  have never := timely.removed world ran 0 removed
  rw [final] at never
  cases never

end DtorCallback

end EasyLua
