import EasyLua.Registry.DtorCallback
import EasyLua.Registry.Register

/-!
# Registries that mirror the living objects

Registries that only `checkIn` fills. An entry is erased by the destructor callback that
`checkIn` has given the object; the callback holds a `weak_ptr` to the registry, as the entry
holds one to the object, so either may be destroyed first.
-/

namespace EasyLua

namespace Mirror

/-- An object of a registry: what its `handle()` returns, and its `DtorCallback`. A callback is
what `std::bind` has fixed of `removeItemCallback`: the registry and the key. -/
structure Object (Key : Type) where
  handle : Key
  callbacks : DtorCallback (Nat × Key)

/-- The living registries and objects, each numbered in the order in which they were made; the
registries in which an object was checked in; and the callbacks that have been run, by object
and registry. -/
structure World (Key : Type) [Ord Key] where
  registers : Nat → Option (Register Key Nat)
  objects : Nat → Option (Object Key)
  nextRegister : Nat
  nextObject : Nat
  checkedIn : Nat → Nat → Bool
  invoked : List (Nat × Nat)

/-- One operation. -/
inductive Event (Key : Type)
  | makeRegister
  | makeObject (handle : Key)
  | checkIn (register object : Nat)
  | fetch (register : Nat) (key : Key)
  | destroyObject (object : Nat)
  | destroyRegister (register : Nat)

variable {Key : Type} [Ord Key]

namespace World

variable (world : World Key)

def alive (object : Nat) : Bool := (world.objects object).isSome

/-- No living object has the handle. -/
def unused (handle : Key) : Bool :=
  (List.range world.nextObject).all fun o =>
    (world.objects o).all fun object => compare object.handle handle != .eq

/-- `removeItemCallback` of an object, which does nothing when `lock()` returns null. -/
def removeItemCallback (object : Nat) (world : World Key) (callback : Nat × Key) : World Key :=
  { world with
    registers := Function.update world.registers callback.1
      ((world.registers callback.1).map fun this_ => this_.removeItemCallback callback.2)
    invoked := world.invoked ++ [(object, callback.1)] }

/-- `checkIn` has taken the object. -/
def enter (register object : Nat) : World Key :=
  { world with
    checkedIn := Function.update world.checkedIn object
      (Function.update (world.checkedIn object) register true) }

end World

/-- One step; no result when the registry or the object does not live, when a new object has the
handle of a living one, or when an object runs out of callback ids. -/
def step (world : World Key) : Event Key → Option (World Key)
  | .makeRegister =>
      some { world with
        registers := Function.update world.registers world.nextRegister (some {})
        nextRegister := world.nextRegister + 1 }
  | .makeObject handle =>
      if world.unused handle then
        some { world with
          objects := Function.update world.objects world.nextObject
            (some { handle, callbacks := {} })
          nextObject := world.nextObject + 1 }
      else none
  | .checkIn r o => do
      let register ← world.registers r
      let object ← world.objects o
      let (register, added) := register.checkIn (fun _ => object.handle) o
      if added then
        let (_, callbacks, invoked) ← object.callbacks.addDtorCallback (r, object.handle)
        let world := invoked.foldl (World.removeItemCallback o) world
        pure ({ world with
          registers := Function.update world.registers r (some register)
          objects := Function.update world.objects o (some { object with callbacks }) }.enter r o)
      else pure (world.enter r o)
  | .fetch r _ => do
      let _ ← world.registers r
      pure world
  | .destroyObject o => do
      let object ← world.objects o
      pure (object.callbacks.destruct.foldl (World.removeItemCallback o)
        { world with objects := Function.update world.objects o none })
  | .destroyRegister r => do
      let _ ← world.registers r
      pure { world with registers := Function.update world.registers r none }

/-- The histories of registries and objects. -/
def machine (Key : Type) [Ord Key] : Machine (World Key) (Event Key) where
  init := {
    registers := fun _ => none
    objects := fun _ => none
    nextRegister := 0
    nextObject := 0
    checkedIn := fun _ _ => false
    invoked := [] }
  step := step

/-- The object lives under the handle, and was checked in to the registry. -/
def Present (world : World Key) (r : Nat) (key : Key) (o : Nat) : Prop :=
  ∃ object, world.objects o = some object ∧ object.handle = key ∧ world.checkedIn o r = true

/-- The callbacks of an object are one for each registry in which it was checked in. -/
structure Bound (isIn : Nat → Bool) (object : Object Key) : Prop where
  fresh : object.callbacks.Fresh
  bound : ∀ r key, (∃ id : Int, object.callbacks.pointerMap_[id]? = some (r, key)) ↔
    key = object.handle ∧ isIn r = true
  once : ∀ (id other : Int) callback, object.callbacks.pointerMap_[id]? = some callback →
    object.callbacks.pointerMap_[other]? = some callback → id = other

/-- The registries mirror the living objects through the callbacks. -/
structure Sound (world : World Key) : Prop where
  entries : ∀ r register, world.registers r = some register → ∀ (key : Key) o,
    register.map_[key]? = some o ↔ Present world r key o
  objects : ∀ o object, world.objects o = some object → Bound (world.checkedIn o) object
  distinct : ∀ o first p second, world.objects o = some first → world.objects p = some second →
    first.handle = second.handle → o = p
  invoked : ∀ o r, world.invoked.count (o, r) =
    (world.checkedIn o r && (world.objects o).isNone).toNat
  nextObject : ∀ o, (∃ r, world.checkedIn o r = true) ∨ (∃ object, world.objects o = some object) →
    o < world.nextObject
  nextRegister : ∀ r, (∃ o, world.checkedIn o r = true) ∨
    (∃ register, world.registers r = some register) → r < world.nextRegister

variable {world next : World Key}

/-! ## The callbacks of one object -/

/-- What a world is after callbacks of an object have been run. -/
structure Ran (o : Nat) (callbacks : List (Nat × Key)) (world next : World Key) : Prop where
  objects : next.objects = world.objects
  checkedIn : next.checkedIn = world.checkedIn
  nextRegister : next.nextRegister = world.nextRegister
  nextObject : next.nextObject = world.nextObject
  invoked : next.invoked = world.invoked ++ callbacks.map fun callback => (o, callback.1)
  dead : ∀ r, next.registers r = none ↔ world.registers r = none
  erased : ∀ r after, next.registers r = some after → ∃ register,
    world.registers r = some register ∧ ∀ (key : Key) o, after.map_[key]? = some o ↔
      register.map_[key]? = some o ∧ (r, key) ∉ callbacks

variable [Std.TransOrd Key] [Std.LawfulEqOrd Key]

theorem ran_foldl (o : Nat) (callbacks : List (Nat × Key)) : ∀ world : World Key,
    Ran o callbacks world (callbacks.foldl (World.removeItemCallback o) world) := by
  induction callbacks with
  | nil =>
      intro world
      refine ⟨rfl, rfl, rfl, rfl, by simp, fun _ => Iff.rfl, fun r after found => ?_⟩
      exact ⟨after, found, fun key o => by simp⟩
  | cons callback callbacks ih =>
      intro world
      obtain ⟨s, k⟩ := callback
      rw [List.foldl_cons]
      obtain ⟨objects, checkedIn, nextRegister, nextObject, invoked, dead, erased⟩ :=
        ih (world.removeItemCallback o (s, k))
      refine ⟨objects, checkedIn, nextRegister, nextObject, ?_, fun r => ?_, ?_⟩
      · rw [invoked, List.map_cons]
        exact List.append_assoc _ [(o, s)] _
      · rw [dead r]
        by_cases same : r = s
        · subst same
          simp only [World.removeItemCallback, Function.update_self, Option.map_eq_none_iff]
        · simp only [World.removeItemCallback, Function.update_of_ne same]
      · intro r after found
        obtain ⟨register, before, entries⟩ := erased r after found
        by_cases same : r = s
        · subst same
          simp only [World.removeItemCallback, Function.update_self, Option.map_eq_some_iff]
            at before
          obtain ⟨this_, isThis, rfl⟩ := before
          refine ⟨this_, isThis, fun key p => ?_⟩
          rw [entries key p]
          unfold Register.removeItemCallback
          rw [PartialMap.erase_eq_some_iff, List.mem_cons, Prod.mk.injEq]
          simp only [true_and, not_or]
          exact ⟨fun ⟨⟨apart, isEntry⟩, missed⟩ => ⟨isEntry, apart, missed⟩,
            fun ⟨isEntry, apart, missed⟩ => ⟨⟨apart, isEntry⟩, missed⟩⟩
        · simp only [World.removeItemCallback, Function.update_of_ne same] at before
          refine ⟨register, before, fun key p => ?_⟩
          rw [entries key p, List.mem_cons, Prod.mk.injEq]
          simp only [same, false_and, false_or]

/-! ## Steps -/

omit [Std.TransOrd Key] [Std.LawfulEqOrd Key] in
theorem Present.lt (sound : Sound world) {r o : Nat} {key : Key} (present : Present world r key o) :
    o < world.nextObject ∧ r < world.nextRegister := by
  obtain ⟨object, _, _, isIn⟩ := present
  exact ⟨sound.nextObject o (Or.inl ⟨r, isIn⟩), sound.nextRegister r (Or.inl ⟨o, isIn⟩)⟩

omit [Std.TransOrd Key] in
theorem unused_iff {handle : Key} :
    world.unused handle = true ↔
      ∀ o < world.nextObject, ∀ object, world.objects o = some object → object.handle ≠ handle := by
  unfold World.unused
  rw [List.all_eq_true]
  simp only [List.mem_range, Option.all_eq_true, bne_iff_ne, ne_eq,
    Std.LawfulEqCmp.compare_eq_iff_eq]

omit [Std.TransOrd Key] [Std.LawfulEqOrd Key] in
theorem sound_init : Sound (machine Key).init where
  entries := fun _ _ living => by cases living
  objects := fun _ _ living => by cases living
  distinct := fun _ _ _ _ living => by cases living
  invoked := fun _ _ => rfl
  nextObject := by
    rintro o (⟨r, isIn⟩ | ⟨object, living⟩)
    · cases isIn
    · cases living
  nextRegister := by
    rintro r (⟨o, isIn⟩ | ⟨register, living⟩)
    · cases isIn
    · cases living

omit [Std.LawfulEqOrd Key] in
theorem Sound.makeRegister (sound : Sound world)
    (stepped : step world .makeRegister = some next) : Sound next := by
  cases Option.some.inj stepped
  refine ⟨?_, sound.objects, sound.distinct, sound.invoked, sound.nextObject, ?_⟩
  · intro r register living key o
    rcases PartialMap.bind_eq_some_iff.mp living with ⟨rfl, rfl⟩ | ⟨_, old⟩
    · constructor
      · intro found
        rw [Std.TreeMap.getElem?_emptyc] at found
        cases found
      · intro present
        exact absurd (Present.lt sound present).2 (Nat.lt_irrefl _)
    · exact sound.entries r register old key o
  · rintro r (⟨o, isIn⟩ | ⟨register, living⟩)
    · exact Nat.lt_succ_of_lt (sound.nextRegister r (Or.inl ⟨o, isIn⟩))
    · rcases PartialMap.bind_eq_some_iff.mp living with ⟨rfl, _⟩ | ⟨_, old⟩
      · exact Nat.lt_succ_self _
      · exact Nat.lt_succ_of_lt (sound.nextRegister r (Or.inr ⟨register, old⟩))

omit [Std.TransOrd Key] in
theorem Sound.makeObject (sound : Sound world) {handle : Key}
    (stepped : step world (.makeObject handle) = some next) : Sound next := by
  obtain ⟨unused, stepped⟩ := Option.ite_none_right_eq_some.mp stepped
  cases Option.some.inj stepped
  rw [unused_iff] at unused
  have unknown : ∀ r, world.checkedIn world.nextObject r ≠ true := fun r isIn =>
    Nat.lt_irrefl _ (sound.nextObject _ (Or.inl ⟨r, isIn⟩))
  have apart : ∀ o object, world.objects o = some object → object.handle ≠ handle :=
    fun o object living => unused o (sound.nextObject o (Or.inr ⟨object, living⟩)) object living
  refine ⟨?_, ?_, ?_, ?_, ?_, sound.nextRegister⟩
  · intro r register living key o
    rw [sound.entries r register living key o]
    apply exists_congr
    intro object
    dsimp only
    rw [PartialMap.bind_eq_some_iff]
    constructor
    · rintro ⟨old, isHandle, isIn⟩
      exact ⟨Or.inr ⟨fun same => unknown r (same ▸ isIn), old⟩, isHandle, isIn⟩
    · rintro ⟨⟨rfl, _⟩ | ⟨_, old⟩, isHandle, isIn⟩
      · exact absurd isIn (unknown r)
      · exact ⟨old, isHandle, isIn⟩
  · intro o object living
    rcases PartialMap.bind_eq_some_iff.mp living with ⟨rfl, rfl⟩ | ⟨_, old⟩
    · refine ⟨DtorCallback.fresh_default, fun r key => ⟨?_, ?_⟩, fun id other callback found => ?_⟩
      · rintro ⟨id, found⟩
        rw [Std.TreeMap.getElem?_emptyc] at found
        cases found
      · exact fun ⟨_, isIn⟩ => absurd isIn (unknown r)
      · rw [Std.TreeMap.getElem?_emptyc] at found
        cases found
    · exact sound.objects o object old
  · intro o first p second isFirst isSecond same
    rcases PartialMap.bind_eq_some_iff.mp isFirst with ⟨rfl, rfl⟩ | ⟨_, oldFirst⟩ <;>
      rcases PartialMap.bind_eq_some_iff.mp isSecond with ⟨rfl, rfl⟩ | ⟨_, oldSecond⟩
    · rfl
    · exact absurd same.symm (apart p second oldSecond)
    · exact absurd same (apart o first oldFirst)
    · exact sound.distinct o first p second oldFirst oldSecond same
  · intro o r
    rw [sound.invoked o r]
    dsimp only
    by_cases new : o = world.nextObject
    · subst new
      rw [Bool.eq_false_iff.mpr (unknown r), Bool.false_and, Bool.false_and]
    · rw [Function.update_of_ne new]
  · rintro o (⟨r, isIn⟩ | ⟨object, living⟩)
    · exact Nat.lt_succ_of_lt (sound.nextObject o (Or.inl ⟨r, isIn⟩))
    · rcases PartialMap.bind_eq_some_iff.mp living with ⟨rfl, _⟩ | ⟨_, old⟩
      · exact Nat.lt_succ_self _
      · exact Nat.lt_succ_of_lt (sound.nextObject o (Or.inr ⟨object, old⟩))

omit [Std.TransOrd Key] [Std.LawfulEqOrd Key] in
theorem Sound.destroyRegister (sound : Sound world) {r : Nat}
    (stepped : step world (.destroyRegister r) = some next) : Sound next := by
  obtain ⟨register, living, stepped⟩ := Option.bind_eq_some_iff.mp stepped
  cases Option.some.inj stepped
  refine ⟨?_, sound.objects, sound.distinct, sound.invoked, sound.nextObject, ?_⟩
  · intro s other living key o
    exact sound.entries s other (PartialMap.unbind_eq_some_iff.mp living).2 key o
  · rintro s (⟨o, isIn⟩ | ⟨other, living⟩)
    · exact sound.nextRegister s (Or.inl ⟨o, isIn⟩)
    · exact sound.nextRegister s (Or.inr ⟨other, (PartialMap.unbind_eq_some_iff.mp living).2⟩)

omit [Ord Key] [Std.TransOrd Key] [Std.LawfulEqOrd Key] in
/-- The callbacks that the destruction of an object runs. -/
theorem Bound.mem_destruct_iff {isIn : Nat → Bool} {object : Object Key}
    (bound : Bound isIn object) {r : Nat} {key : Key} :
    (r, key) ∈ object.callbacks.destruct ↔ key = object.handle ∧ isIn r = true := by
  rw [DtorCallback.mem_destruct_iff]
  exact bound.bound r key

omit [Ord Key] [Std.TransOrd Key] [Std.LawfulEqOrd Key] in
theorem Bound.count_destruct {isIn : Nat → Bool} {object : Object Key}
    (bound : Bound isIn object) (o r : Nat) :
    (object.callbacks.destruct.map fun callback => (o, callback.1)).count (o, r) =
      (isIn r).toNat := by
  have once : (object.callbacks.destruct.map fun callback => (o, callback.1)).Nodup := by
    unfold List.Nodup
    rw [List.pairwise_map]
    have distinct : object.callbacks.destruct.Nodup := PartialMap.nodup_values bound.once
    refine List.Pairwise.imp_of_mem ?_ distinct
    rintro ⟨s, key⟩ ⟨t, other⟩ member otherMember apart same
    obtain ⟨isKey, _⟩ := bound.mem_destruct_iff.mp member
    obtain ⟨isOther, _⟩ := bound.mem_destruct_iff.mp otherMember
    have sameRegister : s = t := (Prod.mk.inj same).2
    exact apart (Prod.ext sameRegister (isKey.trans isOther.symm))
  have member : (o, r) ∈ object.callbacks.destruct.map (fun callback => (o, callback.1)) ↔
      isIn r = true := by
    rw [List.mem_map]
    constructor
    · rintro ⟨⟨s, key⟩, found, same⟩
      cases (Prod.mk.inj same).2
      exact (bound.mem_destruct_iff.mp found).2
    · intro isIn
      exact ⟨(r, object.handle), bound.mem_destruct_iff.mpr ⟨rfl, isIn⟩, rfl⟩
  rw [List.Nodup.count once]
  by_cases isIn : isIn r = true
  · rw [if_pos (member.mpr isIn), isIn]
    rfl
  · rw [if_neg (fun found => isIn (member.mp found)), Bool.eq_false_iff.mpr isIn]
    rfl

theorem Sound.destroyObject (sound : Sound world) {o : Nat}
    (stepped : step world (.destroyObject o) = some next) : Sound next := by
  obtain ⟨object, living, stepped⟩ := Option.bind_eq_some_iff.mp stepped
  have bound := sound.objects o object living
  obtain ⟨objects, checkedIn, nextRegister, nextObject, invoked, dead, erased⟩ :=
    ran_foldl o object.callbacks.destruct
      { world with objects := Function.update world.objects o none }
  rw [Option.some.inj stepped] at *
  dsimp only at objects checkedIn nextRegister nextObject invoked dead erased
  refine ⟨?_, ?_, ?_, ?_, ?_, ?_⟩
  · intro r after isAfter key p
    obtain ⟨register, before, entries⟩ := erased r after isAfter
    rw [entries key p, sound.entries r register before key p, bound.mem_destruct_iff]
    unfold Present
    rw [objects, checkedIn]
    constructor
    · rintro ⟨⟨other, isOther, isHandle, isIn⟩, missed⟩
      refine ⟨other, PartialMap.unbind_eq_some_iff.mpr ⟨?_, isOther⟩, isHandle, isIn⟩
      rintro rfl
      cases Option.some.inj (living.symm.trans isOther)
      exact missed ⟨isHandle.symm, isIn⟩
    · rintro ⟨other, isOther, isHandle, isIn⟩
      obtain ⟨different, old⟩ := PartialMap.unbind_eq_some_iff.mp isOther
      refine ⟨⟨other, old, isHandle, isIn⟩, fun ⟨same, _⟩ => different ?_⟩
      exact sound.distinct p other o object old living (isHandle.trans same)
  · intro p other isOther
    rw [objects] at isOther
    rw [checkedIn]
    exact sound.objects p other (PartialMap.unbind_eq_some_iff.mp isOther).2
  · intro p first q second isFirst isSecond
    rw [objects] at isFirst isSecond
    exact sound.distinct p first q second (PartialMap.unbind_eq_some_iff.mp isFirst).2
      (PartialMap.unbind_eq_some_iff.mp isSecond).2
  · intro p r
    rw [invoked, List.count_append, sound.invoked p r, checkedIn, objects]
    by_cases same : p = o
    · subst same
      rw [bound.count_destruct p r, living, Function.update_self, Option.isNone_some,
        Option.isNone_none, Bool.and_false, Bool.and_true]
      exact Nat.zero_add _
    · rw [Function.update_of_ne same, List.count_eq_zero.mpr, Nat.add_zero]
      intro member
      obtain ⟨_, _, isPair⟩ := List.mem_map.mp member
      exact same (Prod.mk.inj isPair).1.symm
  · intro p known
    rw [checkedIn, objects] at known
    rw [nextObject]
    refine sound.nextObject p (known.imp_right ?_)
    rintro ⟨other, isOther⟩
    exact ⟨other, (PartialMap.unbind_eq_some_iff.mp isOther).2⟩
  · intro r known
    rw [checkedIn] at known
    rw [nextRegister]
    refine sound.nextRegister r (known.imp_right ?_)
    rintro ⟨after, isAfter⟩
    obtain ⟨register, before, _⟩ := erased r after isAfter
    exact ⟨register, before⟩

/-- The world after a new entry of a registry. -/
def entered (world : World Key) (r o : Nat) (register : Register Key Nat) (object : Object Key)
    (callbacks : DtorCallback (Nat × Key)) : World Key :=
  { world with
    registers := Function.update world.registers r
      (some { map_ := register.map_.insert object.handle o })
    objects := Function.update world.objects o (some { object with callbacks }) }.enter r o

omit [Std.TransOrd Key] [Std.LawfulEqOrd Key] in
theorem enter_eq_self {r o : Nat} (isIn : world.checkedIn o r = true) :
    world.enter r o = world := by
  unfold World.enter
  rw [show Function.update (world.checkedIn o) r true = world.checkedIn o by
    rw [← isIn, Function.update_eq_self], Function.update_eq_self]

omit [Std.TransOrd Key] [Std.LawfulEqOrd Key] in
/-- What `checkIn` does: nothing when the object is in the registry already, and otherwise it
gives the object a callback and the registry an entry. -/
theorem step_checkIn (sound : Sound world) {r o : Nat}
    (stepped : step world (.checkIn r o) = some next) :
    (next = world ∧ world.checkedIn o r = true) ∨
    ∃ register object id callbacks, world.registers r = some register ∧
      world.objects o = some object ∧ world.checkedIn o r = false ∧
      object.callbacks.addDtorCallback (r, object.handle) = some (id, callbacks, []) ∧
      next = entered world r o register object callbacks := by
  obtain ⟨register, isRegister, stepped⟩ := Option.bind_eq_some_iff.mp stepped
  obtain ⟨object, isObject, stepped⟩ := Option.bind_eq_some_iff.mp stepped
  rcases register.checkIn_cases (fun _ => object.handle) o with
    ⟨other, taken, result⟩ | ⟨free, result⟩
  · left
    rw [result] at stepped
    obtain ⟨entry, isEntry, same, isIn⟩ := (sound.entries r register isRegister _ other).mp taken
    cases sound.distinct other entry o object isEntry isObject same
    cases Option.some.inj stepped
    exact ⟨enter_eq_self isIn, isIn⟩
  · right
    rw [result] at stepped
    obtain ⟨⟨id, callbacks, invoked⟩, added, stepped⟩ := Option.bind_eq_some_iff.mp stepped
    have absent : world.checkedIn o r = false := by
      rw [Bool.eq_false_iff]
      intro isIn
      rw [(sound.entries r register isRegister _ o).mpr ⟨object, isObject, rfl, isIn⟩] at free
      cases free
    obtain ⟨_, _, rfl, _⟩ :=
      DtorCallback.addDtorCallback_eq_some (sound.objects o object isObject).fresh added
    exact ⟨register, object, id, callbacks, isRegister, isObject, absent, added,
      (Option.some.inj stepped).symm⟩

omit [Ord Key] [Std.TransOrd Key] [Std.LawfulEqOrd Key] in
/-- One more callback of an object, for a registry in which it was not checked in. -/
theorem Bound.add {isIn : Nat → Bool} {object : Object Key} (bound : Bound isIn object) {r : Nat}
    (absent : isIn r = false) {id : Int} {callbacks : DtorCallback (Nat × Key)}
    (added : object.callbacks.addDtorCallback (r, object.handle) = some (id, callbacks, [])) :
    Bound (Function.update isIn r true) { object with callbacks } := by
  obtain ⟨isId, _, _, fresh, entries⟩ := DtorCallback.addDtorCallback_eq_some bound.fresh added
  have unknown : ∀ other : Int, object.callbacks.pointerMap_[other]? ≠ some (r, object.handle) := by
    intro other old
    rw [((bound.bound r object.handle).mp ⟨other, old⟩).2] at absent
    cases absent
  refine ⟨fresh, ?_, ?_⟩
  · intro s key
    dsimp only
    constructor
    · rintro ⟨other, found⟩
      rcases (entries other (s, key)).mp found with ⟨_, same⟩ | ⟨_, old⟩
      · cases same
        exact ⟨rfl, Function.update_self ..⟩
      · obtain ⟨isKey, isOld⟩ := (bound.bound s key).mp ⟨other, old⟩
        refine ⟨isKey, ?_⟩
        rw [Function.update_of_ne, isOld]
        rintro rfl
        rw [absent] at isOld
        cases isOld
    · rintro ⟨rfl, isNow⟩
      by_cases same : s = r
      · subst same
        exact ⟨id, (entries id _).mpr (Or.inl ⟨rfl, rfl⟩)⟩
      · rw [Function.update_of_ne same] at isNow
        obtain ⟨other, old⟩ := (bound.bound s object.handle).mpr ⟨rfl, isNow⟩
        refine ⟨other, (entries other _).mpr (Or.inr ⟨?_, old⟩)⟩
        rintro rfl
        rw [bound.fresh other (by omega)] at old
        cases old
  · intro first second callback isFirst isSecond
    rcases (entries first callback).mp isFirst with ⟨rfl, new⟩ | ⟨_, oldFirst⟩ <;>
      rcases (entries second callback).mp isSecond with ⟨rfl, newer⟩ | ⟨_, oldSecond⟩
    · rfl
    · exact absurd (new ▸ oldSecond) (unknown second)
    · exact absurd (newer ▸ oldFirst) (unknown first)
    · exact bound.once first second callback oldFirst oldSecond

section Entered

variable {r o : Nat} {register : Register Key Nat} {object : Object Key}
  {callbacks : DtorCallback (Nat × Key)} {p s : Nat}

omit [Std.TransOrd Key] [Std.LawfulEqOrd Key] in
/-- Which registries `enter` adds. -/
theorem checkedIn_entered_iff :
    (entered world r o register object callbacks).checkedIn p s = true ↔
      (p = o ∧ s = r) ∨ world.checkedIn p s = true := by
  dsimp only [entered, World.enter]
  by_cases same : p = o
  · subst same
    rw [Function.update_self]
    by_cases here : s = r
    · subst here
      simp only [Function.update_self, true_and, true_or]
    · simp only [Function.update_of_ne here, here, and_false, false_or]
  · simp only [Function.update_of_ne same, same, false_and, false_or]

omit [Std.TransOrd Key] [Std.LawfulEqOrd Key] in
theorem objects_entered_iff {other : Object Key} :
    (entered world r o register object callbacks).objects p = some other ↔
      (p = o ∧ { object with callbacks } = other) ∨ (p ≠ o ∧ world.objects p = some other) :=
  PartialMap.bind_eq_some_iff

omit [Std.TransOrd Key] [Std.LawfulEqOrd Key] in
/-- Besides what was present, the object is in the registry. -/
theorem present_entered_iff (isObject : world.objects o = some object) {key : Key} :
    Present (entered world r o register object callbacks) s key p ↔
      (p = o ∧ s = r ∧ object.handle = key) ∨ Present world s key p := by
  unfold Present
  constructor
  · rintro ⟨other, isOther, isHandle, isIn⟩
    rcases objects_entered_iff.mp isOther with ⟨rfl, rfl⟩ | ⟨different, old⟩
    · rcases checkedIn_entered_iff.mp isIn with ⟨_, rfl⟩ | before
      · exact Or.inl ⟨rfl, rfl, isHandle⟩
      · exact Or.inr ⟨object, isObject, isHandle, before⟩
    · rcases checkedIn_entered_iff.mp isIn with ⟨same, _⟩ | before
      · exact absurd same different
      · exact Or.inr ⟨other, old, isHandle, before⟩
  · rintro (⟨rfl, rfl, isHandle⟩ | ⟨other, old, isHandle, before⟩)
    · exact ⟨_, objects_entered_iff.mpr (Or.inl ⟨rfl, rfl⟩), isHandle,
        checkedIn_entered_iff.mpr (Or.inl ⟨rfl, rfl⟩)⟩
    · by_cases same : p = o
      · subst same
        cases Option.some.inj (isObject.symm.trans old)
        exact ⟨_, objects_entered_iff.mpr (Or.inl ⟨rfl, rfl⟩), isHandle,
          checkedIn_entered_iff.mpr (Or.inr before)⟩
      · exact ⟨other, objects_entered_iff.mpr (Or.inr ⟨same, old⟩), isHandle,
          checkedIn_entered_iff.mpr (Or.inr before)⟩

/-- The new entry is that of the new pair, since the object had none in this registry and no other
object has its handle. -/
theorem entries_entered (sound : Sound world) (isRegister : world.registers r = some register)
    (isObject : world.objects o = some object) (absent : world.checkedIn o r = false) (key : Key) :
    (register.map_.insert object.handle o)[key]? = some p ↔
      Present (entered world r o register object callbacks) r key p := by
  rw [present_entered_iff isObject, PartialMap.insert_eq_some_iff,
    sound.entries r register isRegister key p]
  constructor
  · rintro (⟨rfl, rfl⟩ | ⟨_, before⟩)
    · exact Or.inl ⟨rfl, rfl, rfl⟩
    · exact Or.inr before
  · rintro (⟨rfl, _, rfl⟩ | before)
    · exact Or.inl ⟨rfl, rfl⟩
    · refine Or.inr ⟨?_, before⟩
      rintro rfl
      obtain ⟨other, isOther, same, isIn⟩ := before
      rw [sound.distinct p other o object isOther isObject same, absent] at isIn
      cases isIn

end Entered

theorem Sound.checkIn (sound : Sound world) {r o : Nat}
    (stepped : step world (.checkIn r o) = some next) : Sound next := by
  rcases step_checkIn sound stepped with
    ⟨rfl, _⟩ | ⟨register, object, id, callbacks, isRegister, isObject, absent, added, rfl⟩
  · exact sound
  have bound := sound.objects o object isObject
  refine ⟨?_, ?_, ?_, ?_, ?_, ?_⟩
  · intro s after isAfter key p
    rcases PartialMap.bind_eq_some_iff.mp isAfter with ⟨rfl, rfl⟩ | ⟨different, old⟩
    · exact entries_entered sound isRegister isObject absent key
    · rw [present_entered_iff isObject, sound.entries s after old key p]
      simp only [different, false_and, and_false, false_or]
  · intro p other isOther
    rcases objects_entered_iff.mp isOther with ⟨rfl, rfl⟩ | ⟨different, old⟩
    · have isIn : (entered world r p register object callbacks).checkedIn p =
          Function.update (world.checkedIn p) r true := Function.update_self ..
      rw [isIn]
      exact bound.add absent added
    · have isIn : (entered world r o register object callbacks).checkedIn p = world.checkedIn p :=
        Function.update_of_ne different ..
      rw [isIn]
      exact sound.objects p other old
  · intro p first q second isFirst isSecond same
    rcases objects_entered_iff.mp isFirst with ⟨rfl, rfl⟩ | ⟨_, oldFirst⟩ <;>
      rcases objects_entered_iff.mp isSecond with ⟨rfl, rfl⟩ | ⟨_, oldSecond⟩
    · rfl
    · exact sound.distinct p object q second isObject oldSecond same
    · exact sound.distinct p first q object oldFirst isObject same
    · exact sound.distinct p first q second oldFirst oldSecond same
  · intro p s
    have before := sound.invoked p s
    by_cases same : p = o
    · subst same
      rw [isObject, Option.isNone_some, Bool.and_false] at before
      rw [objects_entered_iff.mpr (Or.inl ⟨rfl, rfl⟩), Option.isNone_some, Bool.and_false]
      exact before
    · dsimp only [entered, World.enter]
      rw [Function.update_of_ne same, Function.update_of_ne same]
      exact before
  · rintro p (⟨s, isIn⟩ | ⟨other, isOther⟩)
    · rcases checkedIn_entered_iff.mp isIn with ⟨rfl, _⟩ | before
      · exact sound.nextObject p (Or.inr ⟨object, isObject⟩)
      · exact sound.nextObject p (Or.inl ⟨s, before⟩)
    · rcases objects_entered_iff.mp isOther with ⟨rfl, _⟩ | ⟨_, old⟩
      · exact sound.nextObject p (Or.inr ⟨object, isObject⟩)
      · exact sound.nextObject p (Or.inr ⟨other, old⟩)
  · rintro s (⟨p, isIn⟩ | ⟨after, isAfter⟩)
    · rcases checkedIn_entered_iff.mp isIn with ⟨_, rfl⟩ | before
      · exact sound.nextRegister s (Or.inr ⟨register, isRegister⟩)
      · exact sound.nextRegister s (Or.inl ⟨p, before⟩)
    · rcases PartialMap.bind_eq_some_iff.mp isAfter with ⟨rfl, _⟩ | ⟨_, old⟩
      · exact sound.nextRegister s (Or.inr ⟨register, isRegister⟩)
      · exact sound.nextRegister s (Or.inr ⟨after, old⟩)

theorem sound_step (sound : Sound world) {event : Event Key}
    (stepped : step world event = some next) : Sound next := by
  cases event with
  | makeRegister => exact sound.makeRegister stepped
  | makeObject handle => exact sound.makeObject stepped
  | checkIn r o => exact sound.checkIn stepped
  | fetch r key =>
      obtain ⟨_, _, stepped⟩ := Option.bind_eq_some_iff.mp stepped
      cases Option.some.inj stepped
      exact sound
  | destroyObject o => exact sound.destroyObject stepped
  | destroyRegister r => exact sound.destroyRegister stepped

theorem sound_run (events : List (Event Key)) (world : World Key)
    (ran : (machine Key).run events = some world) : Sound world :=
  (machine Key).run_invariant Sound sound_init
    (fun _ _ _ sound stepped => sound_step sound stepped) events world ran

/-- What registries that only `checkIn` fills are after each operation. -/
structure Mirrors (world : World Key) : Prop where
  /-- A registry has an entry for each living object that was checked in, and no other. -/
  entries : ∀ r register, world.registers r = some register → ∀ (key : Key) o,
    register.map_[key]? = some o ↔ Present world r key o
  fetched : ∀ r register, world.registers r = some register → ∀ (key : Key) o,
    register.fetch world.alive key = some o ↔ Present world r key o
  /-- A callback runs once for each registry in which the object was checked in, when the object
  is destroyed. -/
  invoked : ∀ o r, world.invoked.count (o, r) =
    (world.checkedIn o r && (world.objects o).isNone).toNat
  destroyed : ∀ o object, world.objects o = some object → ∃ next,
    step world (.destroyObject o) = some next ∧ ∀ r, next.invoked.count (o, r) =
      world.invoked.count (o, r) + (world.checkedIn o r).toNat
  /-- The callback of a registry that was destroyed first does nothing. -/
  harmless : ∀ o r, world.registers r = none → ∀ key : Key,
    (world.removeItemCallback o (r, key)).registers = world.registers ∧
      (world.removeItemCallback o (r, key)).objects = world.objects

omit [Std.TransOrd Key] [Std.LawfulEqOrd Key] in
/-- `fetch` finds what has an entry, since entries are of living objects. -/
theorem Sound.fetch_eq_some (sound : Sound world) {r : Nat} {register : Register Key Nat}
    (living : world.registers r = some register) (key : Key) (o : Nat) :
    register.fetch world.alive key = some o ↔ Present world r key o := by
  constructor
  · intro fetched
    unfold Register.fetch at fetched
    cases entry : register.map_[key]? with
    | none =>
        rw [entry] at fetched
        cases fetched
    | some weak =>
        rw [entry] at fetched
        obtain ⟨_, rfl⟩ := Register.lock_eq_some.mp fetched
        exact (sound.entries r register living key weak).mp entry
  · intro present
    have alive : world.alive o = true := by
      obtain ⟨object, isObject, _⟩ := present
      exact Option.isSome_of_eq_some isObject
    exact Register.fetch_eq_some ((sound.entries r register living key o).mpr present) alive

theorem Sound.mirrors (sound : Sound world) : Mirrors world where
  entries := sound.entries
  fetched := fun _ _ living => sound.fetch_eq_some living
  invoked := sound.invoked
  destroyed := by
    intro o object living
    obtain ⟨next, stepped⟩ : ∃ next, step world (.destroyObject o) = some next := by
      unfold step
      dsimp only
      rw [living]
      exact ⟨_, rfl⟩
    refine ⟨next, stepped, fun r => ?_⟩
    obtain ⟨_, same, stepped⟩ := Option.bind_eq_some_iff.mp stepped
    cases Option.some.inj (living.symm.trans same)
    cases Option.some.inj stepped
    rw [(ran_foldl o object.callbacks.destruct _).invoked, List.count_append,
      (sound.objects o object living).count_destruct]
  harmless := by
    intro o r dead key
    refine ⟨?_, rfl⟩
    unfold World.removeItemCallback
    dsimp only
    rw [dead, Option.map_none, ← dead, Function.update_eq_self]

/-- **Registries that `checkIn` fills mirror the living objects**, whichever side is destroyed
first. -/
theorem mirrors_of_run (events : List (Event Key)) (world : World Key)
    (ran : (machine Key).run events = some world) : Mirrors world :=
  (sound_run events world ran).mirrors

/-- The second registry dies before the object that was checked in to both. -/
theorem mirrors_of_run_destroyed : ∃ world,
    (machine Nat).run [.makeRegister, .makeRegister, .makeObject 5, .makeObject 7, .checkIn 0 0,
      .checkIn 1 0, .checkIn 0 0, .checkIn 0 1, .destroyRegister 1, .destroyObject 0] =
      some world ∧ world.invoked = [(0, 0), (0, 1)] ∧ Mirrors world := by
  have observed : ((machine Nat).run [.makeRegister, .makeRegister, .makeObject 5, .makeObject 7,
      .checkIn 0 0, .checkIn 1 0, .checkIn 0 0, .checkIn 0 1, .destroyRegister 1,
      .destroyObject 0]).map World.invoked = some [(0, 0), (0, 1)] := by rfl
  obtain ⟨world, ran, invoked⟩ := Option.map_eq_some_iff.mp observed
  exact ⟨world, ran, invoked, mirrors_of_run _ world ran⟩

end Mirror

end EasyLua
