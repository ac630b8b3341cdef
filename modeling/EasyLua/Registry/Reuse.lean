import EasyLua.Foundation.Machine
import EasyLua.Registry.Register

/-!
# Reusing a service name

The creations and destructions of VMs as far as `ServiceMgr` is concerned.
`cThisVM.__new__` gets the service of its VM from `fetchOrCreate`, and the VM's
context owns it until the context is destroyed. An entry that `fetchOrCreate` has
inserted is never erased: unlike `checkIn` it gives the object no destructor callback.
-/

namespace EasyLua

namespace Reuse

/-- The context of a living VM: its handle, the name it was created under and the
service it owns, told apart by the handle of the VM it was constructed for. -/
structure Context (Name : Type) where
  handle_ : Nat
  name : Name
  service : Nat
  deriving DecidableEq

/-- The registry of the services, the contexts of the living VMs, and the last handle
given to a VM. -/
structure World (Name : Type) [Ord Name] where
  serviceMgr : Register Name Nat
  contexts : List (Context Name)
  lastHandle_ : Nat

/-- One step of the history. -/
inductive Event (Name : Type)
  /-- `cThisVM.__new__` of a new VM. -/
  | create (name : Name)
  /-- The last reference to a context is dropped. -/
  | destroy (handle : Nat)
  deriving DecidableEq

variable {Name : Type} [Ord Name]

/-- A service lives while a context owns it. -/
def World.alive (world : World Name) (service : Nat) : Bool :=
  world.contexts.any fun context => context.service = service

/-- `ServiceMgr::instance().fetchOrCreate(name, name)` for the next VM. -/
def World.fetchOrCreate (world : World Name) (name : Name) : Option Nat × Register Name Nat :=
  world.serviceMgr.fetchOrCreate world.alive name (world.lastHandle_ + 1)

/-- `ServiceMgr::instance().fetch(name)`. -/
def World.fetch (world : World Name) (name : Name) : Option Nat :=
  world.serviceMgr.fetch world.alive name

/-- One step; no result when the VM does not live, or when `__new__` would go on with a
null service. -/
def step (world : World Name) : Event Name → Option (World Name)
  | .create name =>
      match world.fetchOrCreate name with
      | (some service, serviceMgr) =>
          some
            { serviceMgr
              contexts := world.contexts ++ [{ handle_ := world.lastHandle_ + 1, name, service }]
              lastHandle_ := world.lastHandle_ + 1 }
      | (none, _) => none
  | .destroy handle =>
      if world.contexts.any fun context => context.handle_ = handle then
        some { world with
          contexts := world.contexts.filter fun context => context.handle_ ≠ handle }
      else none

/-- The histories of VM creations and destructions. -/
def machine (Name : Type) [Ord Name] : Machine (World Name) (Event Name) where
  init := { serviceMgr := {}, contexts := [], lastHandle_ := 0 }
  step := step

/-- `fetchOrCreate` returns a living service, which the new VM then owns, and `fetch`
returns the same one for as long as it lives. -/
def Usable (world : World Name) (name : Name) : Prop :=
  ∃ service next, (world.fetchOrCreate name).1 = some service ∧
    step world (.create name) = some next ∧ next.alive service = true ∧
    ∀ more last, (machine Name).runFrom next more = some last → last.alive service = true →
      last.fetch name = some service

/-- The entries of the registry: exactly the names used so far have one, it is the
service of every VM of this name, and no two names share a service. -/
structure Entries (events : List (Event Name)) (world : World Name) : Prop where
  used : ∀ name, world.serviceMgr.map_[name]? = none ↔ .create name ∉ events
  owned : ∀ context ∈ world.contexts,
    world.serviceMgr.map_[context.name]? = some context.service
  unshared : ∀ (first second : Name) (service : Nat), world.serviceMgr.map_[first]? = some service →
    world.serviceMgr.map_[second]? = some service → first = second
  known : ∀ (name : Name) (service : Nat), world.serviceMgr.map_[name]? = some service →
    service ≤ world.lastHandle_

theorem alive_iff {world : World Name} {service : Nat} :
    world.alive service = true ↔ ∃ context ∈ world.contexts, context.service = service := by
  simp [World.alive]

theorem step_create_of_fetchOrCreate {world : World Name} {name : Name} {service : Nat}
    {serviceMgr : Register Name Nat}
    (result : world.fetchOrCreate name = (some service, serviceMgr)) :
    step world (.create name) = some
      { serviceMgr
        contexts := world.contexts ++ [{ handle_ := world.lastHandle_ + 1, name, service }]
        lastHandle_ := world.lastHandle_ + 1 } := by
  simp only [step, result]

/-- What a creation does: a new name gets a new service, a known one its living service. -/
theorem step_create {world next : World Name} {name : Name}
    (stepped : step world (.create name) = some next) :
    (world.serviceMgr.map_[name]? = none ∧ next =
      { serviceMgr := { map_ := world.serviceMgr.map_.insert name (world.lastHandle_ + 1) }
        contexts := world.contexts ++
          [{ handle_ := world.lastHandle_ + 1, name, service := world.lastHandle_ + 1 }]
        lastHandle_ := world.lastHandle_ + 1 }) ∨
    (∃ service, world.serviceMgr.map_[name]? = some service ∧ world.alive service = true ∧
      next =
        { serviceMgr := world.serviceMgr
          contexts := world.contexts ++ [{ handle_ := world.lastHandle_ + 1, name, service }]
          lastHandle_ := world.lastHandle_ + 1 }) := by
  simp only [step, World.fetchOrCreate] at stepped
  rcases world.serviceMgr.fetchOrCreate_cases world.alive name (world.lastHandle_ + 1) with
    ⟨absent, result⟩ | ⟨weak, entry, result⟩
  · rw [result] at stepped
    exact Or.inl ⟨absent, (Option.some.inj stepped).symm⟩
  · rw [result] at stepped
    cases living : lock world.alive weak with
    | none => simp [living] at stepped
    | some service =>
        obtain ⟨alive, rfl⟩ := Register.lock_eq_some.mp living
        rw [living] at stepped
        exact Or.inr ⟨weak, entry, alive, (Option.some.inj stepped).symm⟩

theorem step_destroy {world next : World Name} {handle : Nat}
    (stepped : step world (.destroy handle) = some next) :
    next = { world with
      contexts := world.contexts.filter fun context => context.handle_ ≠ handle } := by
  simp only [step] at stepped
  split at stepped
  · exact (Option.some.inj stepped).symm
  · cases stepped

variable [Std.TransOrd Name] [Std.LawfulEqOrd Name]

/-- No step takes an entry away. -/
theorem entry_step {world next : World Name} {event : Event Name}
    (stepped : step world event = some next) {name : Name} {service : Nat}
    (entry : world.serviceMgr.map_[name]? = some service) :
    next.serviceMgr.map_[name]? = some service := by
  cases event with
  | create other =>
      rcases step_create stepped with ⟨absent, rfl⟩ | ⟨_, _, _, rfl⟩
      · have different : name ≠ other := by
          rintro rfl
          rw [entry] at absent
          cases absent
        rw [Register.getElem?_insert_of_ne _ _ different, entry]
      · exact entry
  | destroy handle =>
      rw [step_destroy stepped]
      exact entry

theorem Entries.create_new {events : List (Event Name)} {world : World Name} {name : Name}
    (entries : Entries events world) (absent : world.serviceMgr.map_[name]? = none) :
    Entries (events ++ [.create name])
      { serviceMgr := { map_ := world.serviceMgr.map_.insert name (world.lastHandle_ + 1) }
        contexts := world.contexts ++
          [{ handle_ := world.lastHandle_ + 1, name, service := world.lastHandle_ + 1 }]
        lastHandle_ := world.lastHandle_ + 1 } := by
  have fresh : ∀ other, world.serviceMgr.map_[other]? ≠ some (world.lastHandle_ + 1) :=
    fun other entry => absurd (entries.known other _ entry) (by omega)
  refine ⟨?_, ?_, ?_, ?_⟩
  · intro other
    by_cases same : other = name
    · subst other
      simp
    · rw [Register.getElem?_insert_of_ne _ _ same, entries.used]
      simp [same]
  · intro context member
    rcases List.mem_append.mp member with before | new
    · have different : context.name ≠ name := by
        intro same
        have entry := entries.owned context before
        rw [same, absent] at entry
        cases entry
      rw [Register.getElem?_insert_of_ne _ _ different]
      exact entries.owned context before
    · cases List.mem_singleton.mp new
      exact Std.TreeMap.getElem?_insert_self ..
  · intro first second service left right
    by_cases isFirst : first = name <;> by_cases isSecond : second = name
    · rw [isFirst, isSecond]
    · rw [isFirst, Std.TreeMap.getElem?_insert_self] at left
      rw [Register.getElem?_insert_of_ne _ _ isSecond, ← left] at right
      exact absurd right (fresh second)
    · rw [isSecond, Std.TreeMap.getElem?_insert_self] at right
      rw [Register.getElem?_insert_of_ne _ _ isFirst, ← right] at left
      exact absurd left (fresh first)
    · rw [Register.getElem?_insert_of_ne _ _ isFirst] at left
      rw [Register.getElem?_insert_of_ne _ _ isSecond] at right
      exact entries.unshared first second service left right
  · intro other service entry
    by_cases same : other = name
    · rw [same, Std.TreeMap.getElem?_insert_self] at entry
      exact (Option.some.inj entry).ge
    · rw [Register.getElem?_insert_of_ne _ _ same] at entry
      exact Nat.le_succ_of_le (entries.known other service entry)

omit [Std.TransOrd Name] [Std.LawfulEqOrd Name] in
theorem Entries.create_known {events : List (Event Name)} {world : World Name} {name : Name}
    {service : Nat} (entries : Entries events world)
    (entry : world.serviceMgr.map_[name]? = some service) :
    Entries (events ++ [.create name])
      { serviceMgr := world.serviceMgr
        contexts := world.contexts ++ [{ handle_ := world.lastHandle_ + 1, name, service }]
        lastHandle_ := world.lastHandle_ + 1 } := by
  refine ⟨?_, ?_, entries.unshared, ?_⟩
  · intro other
    by_cases same : other = name
    · subst other
      simp [entry]
    · simp [entries.used, same]
  · intro context member
    rcases List.mem_append.mp member with before | new
    · exact entries.owned context before
    · cases List.mem_singleton.mp new
      exact entry
  · exact fun other object known => Nat.le_succ_of_le (entries.known other object known)

theorem Entries.step {events : List (Event Name)} {world next : World Name} {event : Event Name}
    (entries : Entries events world) (stepped : step world event = some next) :
    Entries (events ++ [event]) next := by
  cases event with
  | create name =>
      rcases step_create stepped with ⟨absent, rfl⟩ | ⟨service, entry, _, rfl⟩
      · exact entries.create_new absent
      · exact entries.create_known entry
  | destroy handle =>
      obtain rfl := step_destroy stepped
      refine ⟨?_, ?_, entries.unshared, entries.known⟩
      · intro name
        simp [entries.used]
      · exact fun context member => entries.owned context (List.mem_of_mem_filter member)

/-- The entries in every history. -/
theorem entries_of_run {events : List (Event Name)} {world : World Name}
    (ran : (machine Name).run events = some world) : Entries events world := by
  refine (machine Name).run_history_invariant Entries ?_ ?_ events world ran
  · refine ⟨?_, ?_, ?_, ?_⟩ <;> simp [machine]
  · exact fun _ _ _ _ entries stepped => entries.step stepped

/-- An entry is fetched for as long as its object lives. -/
theorem fetch_of_runFrom {events : List (Event Name)} {world last : World Name} {name : Name}
    {service : Nat} (entry : world.serviceMgr.map_[name]? = some service)
    (ran : (machine Name).runFrom world events = some last) (living : last.alive service = true) :
    last.fetch name = some service := by
  have kept := (machine Name).runFrom_invariant
    (fun world => world.serviceMgr.map_[name]? = some service)
    (fun _ _ _ entry stepped => entry_step stepped entry) events world last entry ran
  exact Register.fetch_eq_some kept living

omit [Std.TransOrd Name] [Std.LawfulEqOrd Name] in
/-- The service of a used name lives exactly while a VM of this name does. -/
theorem Entries.alive_iff_named {events : List (Event Name)} {world : World Name} {name : Name}
    {service : Nat} (entries : Entries events world)
    (entry : world.serviceMgr.map_[name]? = some service) :
    world.alive service = true ↔ ∃ context ∈ world.contexts, context.name = name := by
  rw [alive_iff]
  constructor
  · intro owned
    obtain ⟨context, member, rfl⟩ := owned
    exact ⟨context, member, entries.unshared _ _ _ (entries.owned context member) entry⟩
  · intro living
    obtain ⟨context, member, rfl⟩ := living
    have owned := entries.owned context member
    rw [entry] at owned
    exact ⟨context, member, (Option.some.inj owned).symm⟩

/-- **When a name can be used.** After every history, `fetchOrCreate` under a name returns
a living service that `fetch` then returns for as long as it lives, if and only if no VM
was created under the name before or one of them still lives. -/
theorem usable_iff_unused_or_living {events : List (Event Name)} {world : World Name}
    (name : Name) (ran : (machine Name).run events = some world) :
    Usable world name ↔
      .create name ∉ events ∨ ∃ context ∈ world.contexts, context.name = name := by
  have entries := entries_of_run ran
  rcases world.serviceMgr.fetchOrCreate_cases world.alive name (world.lastHandle_ + 1) with
    ⟨absent, result⟩ | ⟨service, entry, result⟩
  · -- a new name: its service is constructed and owned by the new VM
    refine ⟨fun _ => Or.inl ((entries.used name).mp absent), fun _ => ?_⟩
    refine ⟨world.lastHandle_ + 1, _, congrArg Prod.fst result,
      step_create_of_fetchOrCreate result, ?_, ?_⟩
    · simp [World.alive]
    · intro more last
      exact fetch_of_runFrom (Std.TreeMap.getElem?_insert_self ..)
  · -- a known name: everything depends on whether its service lives
    rw [← entries.alive_iff_named entry]
    constructor
    · intro usable
      obtain ⟨object, _, returned, _⟩ := usable
      rw [World.fetchOrCreate, result] at returned
      exact Or.inr (Register.lock_eq_some.mp returned).1
    · rintro (unused | living)
      · rw [(entries.used name).mpr unused] at entry
        cases entry
      · rw [Register.lock_eq_some.mpr ⟨living, rfl⟩] at result
        refine ⟨service, _, congrArg Prod.fst result, step_create_of_fetchOrCreate result, ?_, ?_⟩
        · simp [World.alive]
        · intro more last
          exact fetch_of_runFrom entry

/-- A VM is created under a name and destroyed: the next `fetchOrCreate` returns null. -/
theorem fetchOrCreate_null_after_destroy :
    ∃ world, (machine String).run [.create "a", .destroy 1] = some world ∧
      (world.fetchOrCreate "a").1 = none := by
  exact ⟨_, rfl, by decide⟩

/-- The name of a living VM and a new name, next to a name whose only VM was destroyed. -/
theorem usable_iff_unused_or_living_mixed :
    ∃ world, (machine String).run [.create "a", .create "b", .destroy 1] = some world ∧
      Usable world "b" ∧ Usable world "c" ∧ ¬ Usable world "a" := by
  obtain ⟨world, ran, living, gone⟩ :
      ∃ world, (machine String).run [.create "a", .create "b", .destroy 1] = some world ∧
        (∃ context ∈ world.contexts, context.name = "b") ∧
        ¬ ∃ context ∈ world.contexts, context.name = "a" := ⟨_, rfl, by decide, by decide⟩
  refine ⟨world, ran, ?_, ?_, ?_⟩
  · exact (usable_iff_unused_or_living "b" ran).mpr (Or.inr living)
  · exact (usable_iff_unused_or_living "c" ran).mpr (Or.inl (by decide))
  · rw [usable_iff_unused_or_living "a" ran]
    simp [gone]

end Reuse

end EasyLua
