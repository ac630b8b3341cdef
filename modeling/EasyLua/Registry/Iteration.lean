import EasyLua.Foundation.Machine
import EasyLua.Registry.Register
import Mathlib.Logic.Function.Basic

/-!
# Loops over a registry while VMs come and go

`pushMsg2FreeVm` walks the VMs of its service and `iAmReady` those of `ContextMgr`.
The first holds `cServiceInfo::mutex_`, so there is one such loop per service at a
time; the second holds nothing. `checkIn` and `fetch` run under `Register::mutex_`,
which neither loop takes, and `removeItemCallback` takes no lock at all. A VM dies in
two steps: its last owner releases it, and then its destructor callbacks erase its
entries.
-/

namespace EasyLua

namespace Iteration

variable (Vm Service Thread : Type)

/-- The registries that hold VM contexts. -/
inductive Registry
  | service (info : Service)
  | contextMgr
  deriving DecidableEq

/-- The loops over them. -/
inductive Loop
  | pushMsg2FreeVm (info : Service)
  | iAmReady (thread : Thread)
  deriving DecidableEq

variable {Service Thread} in
/-- The registry a loop walks. -/
def Loop.registry : Loop Service Thread → Registry Service
  | .pushMsg2FreeVm info => .service info
  | .iAmReady _ => .contextMgr

/-- A constructed context: its owners, the loop temporaries that also own it, and the
registries in which one of its destructor callbacks will erase its entry. -/
structure Object where
  owners : Nat
  temporaries : Nat
  callbacks : List (Registry Service)

/-- Where the body of a loop stands. -/
inductive Phase
  /-- The next entry has not been read yet. -/
  | ready
  /-- The temporary holds the locked entry. -/
  | holding (obj : Vm)
  /-- Dropping the temporary destroyed its object; the destructor runs on this thread. -/
  | destroying (obj : Vm)
  /-- The temporary has been dropped. -/
  | dropped
  /-- The entry locked to null: the assertion failed, or null was dereferenced. -/
  | failed
  deriving DecidableEq

/-- A loop in progress: its iterator, absent at the end of the map, its phase, and
whether the map has been modified since the loop started. -/
structure Traversal where
  position : Option Int32
  phase : Phase Vm
  modified : Bool

/-- The registries, the contexts constructed so far and the loops in progress. -/
structure World where
  map_ : Registry Service → Register Int32 Vm
  object : Vm → Option (Object Service)
  loop : Loop Service Thread → Option (Traversal Vm)

/-- One step of some thread. -/
inductive Event
  /-- `new cVmContext`, owned by its VM. -/
  | construct (vm : Vm)
  /-- `Register::checkIn` by an owner. -/
  | checkIn (registry : Registry Service) (vm : Vm)
  /-- `Register::fetch`; the caller owns the result. -/
  | fetch (registry : Registry Service) (key : Int32)
  /-- An owner drops its reference. -/
  | release (vm : Vm)
  /-- A destructor callback of a dead context erases its entry. -/
  | runCallback (registry : Registry Service) (vm : Vm)
  /-- The loop gets its first iterator. -/
  | start (loop : Loop Service Thread)
  /-- The loop reads its entry and locks it. -/
  | visit (loop : Loop Service Thread)
  /-- `pushMsg2FreeVm` found an idle VM: it breaks and keeps the reference in `pIdle`. -/
  | stop (info : Service)
  /-- The temporary is dropped at the end of the body. -/
  | drop (loop : Loop Service Thread)
  /-- The iterator is incremented. -/
  | advance (loop : Loop Service Thread)
  /-- The iterator is at the end of the map. -/
  | finish (loop : Loop Service Thread)

variable {Vm Service Thread}

/-- The number of `shared_ptr`s of an object. -/
def Object.useCount (object : Object Service) : Nat := object.owners + object.temporaries

/-- The object has been constructed and has an owner. -/
def World.alive (world : World Vm Service Thread) (vm : Vm) : Bool :=
  match world.object vm with
  | some object => decide (0 < object.useCount)
  | none => false

variable [DecidableEq Vm] [DecidableEq Service] [DecidableEq Thread]

def World.setObject (world : World Vm Service Thread) (vm : Vm) (object : Object Service) :
    World Vm Service Thread :=
  { world with object := Function.update world.object vm (some object) }

def World.setLoop (world : World Vm Service Thread) (loop : Loop Service Thread)
    (traversal : Option (Traversal Vm)) : World Vm Service Thread :=
  { world with loop := Function.update world.loop loop traversal }

/-- A registry is modified, also for the loops that are walking it. -/
def World.modify (world : World Vm Service Thread) (registry : Registry Service)
    (register : Register Int32 Vm) : World Vm Service Thread :=
  { world with
    map_ := Function.update world.map_ registry register
    loop := fun loop =>
      if loop.registry = registry then
        (world.loop loop).map fun traversal => { traversal with modified := true }
      else world.loop loop }

/-- One step; no result when the event is not enabled. Incrementing the iterator of an
erased entry is undefined in the source, so it has no result either. -/
def step (handle : Vm → Int32) (world : World Vm Service Thread) :
    Event Vm Service Thread → Option (World Vm Service Thread)
  | .construct vm =>
      match world.object vm with
      | none => some (world.setObject vm { owners := 1, temporaries := 0, callbacks := [] })
      | some _ => none
  | .checkIn registry vm =>
      match world.object vm with
      | some object =>
          if object.useCount = 0 then none
          else
            match (world.map_ registry).checkIn handle vm with
            | (register, true) =>
                some ((world.modify registry register).setObject vm
                  { object with callbacks := object.callbacks ++ [registry] })
            | (_, false) => some world
      | none => none
  | .fetch registry key =>
      match (world.map_ registry).fetch world.alive key with
      | some vm =>
          match world.object vm with
          | some object => some (world.setObject vm { object with owners := object.owners + 1 })
          | none => none
      | none => some world
  | .release vm =>
      match world.object vm with
      | some object =>
          if object.owners = 0 then none
          else some (world.setObject vm { object with owners := object.owners - 1 })
      | none => none
  | .runCallback registry vm =>
      match world.object vm with
      | some object =>
          if object.useCount = 0 ∧ registry ∈ object.callbacks then
            some ((world.modify registry
              ((world.map_ registry).removeItemCallback (handle vm))).setObject vm
                { object with callbacks := object.callbacks.erase registry })
          else none
      | none => none
  | .start loop =>
      match world.loop loop with
      | none =>
          some (world.setLoop loop (some
            { position := (world.map_ loop.registry).map_.keys.head?
              phase := .ready
              modified := false }))
      | some _ => none
  | .visit loop =>
      match world.loop loop with
      | some { position := some key, phase := .ready, modified } =>
          match (world.map_ loop.registry).map_[key]? with
          | some weak =>
              match lock world.alive weak, world.object weak with
              | some obj, some object =>
                  some ((world.setObject obj
                    { object with temporaries := object.temporaries + 1 }).setLoop loop (some
                      { position := some key, phase := .holding obj, modified }))
              | _, _ =>
                  some (world.setLoop loop (some
                    { position := some key, phase := .failed, modified }))
          | none => none
      | _ => none
  | .stop info =>
      match world.loop (.pushMsg2FreeVm info) with
      | some { position := _, phase := .holding obj, modified := _ } =>
          match world.object obj with
          | some object =>
              some ((world.setObject obj
                { object with
                  owners := object.owners + 1
                  temporaries := object.temporaries - 1 }).setLoop (.pushMsg2FreeVm info) none)
          | none => none
      | _ => none
  | .drop loop =>
      match world.loop loop with
      | some { position, phase := .holding obj, modified } =>
          match world.object obj with
          | some object =>
              let after := { object with temporaries := object.temporaries - 1 }
              some ((world.setObject obj after).setLoop loop (some
                { position
                  phase := if after.useCount = 0 then .destroying obj else .dropped
                  modified }))
          | none => none
      | _ => none
  | .advance loop =>
      match world.loop loop with
      | some { position := some key, phase, modified } =>
          let next : Traversal Vm :=
            { position := (world.map_ loop.registry).map_.getKeyGT? key, phase := .ready, modified }
          match phase, (world.map_ loop.registry).map_[key]? with
          | .dropped, some _ => some (world.setLoop loop (some next))
          | .destroying obj, some _ =>
              -- the destructor has to return before the loop goes on
              if (world.object obj).all fun object => object.callbacks.isEmpty then
                some (world.setLoop loop (some next))
              else none
          | _, _ => none
      | _ => none
  | .finish loop =>
      match world.loop loop with
      | some { position := none, phase := .ready, modified := _ } => some (world.setLoop loop none)
      | _ => none

/-- No context has been constructed and no loop started. -/
def World.initial : World Vm Service Thread where
  map_ := fun _ => {}
  object := fun _ => none
  loop := fun _ => none

/-- The interleavings of the loops with the births and deaths of VMs. -/
def machine (handle : Vm → Int32) :
    Machine (World Vm Service Thread) (Event Vm Service Thread) where
  init := World.initial
  step := step handle

/-- Some loop is walking the registry. -/
def World.Walked (world : World Vm Service Thread) (registry : Registry Service) : Prop :=
  ∃ loop traversal, world.loop loop = some traversal ∧ loop.registry = registry

/-- The registry has an entry of the VM. -/
def World.Registered (world : World Vm Service Thread) (registry : Registry Service) (vm : Vm) :
    Prop :=
  ∃ key : Int32, (world.map_ registry).map_[key]? = some vm

/-- Only one `shared_ptr` of the VM is left. -/
def World.LastReference (world : World Vm Service Thread) (vm : Vm) : Prop :=
  ∀ object, world.object vm = some object → object.useCount ≤ 1

/-- No birth or death of a registered VM overlaps a loop: a walked registry gets no new
entry, no VM in it loses its last owner (be it the temporary of the loop), no entry of it
is erased, and a loop starts only when each entry of its registry is alive. -/
def Undisturbed (world : World Vm Service Thread) : Event Vm Service Thread → Prop
  | .checkIn registry _ => ¬ world.Walked registry
  | .release vm => world.LastReference vm →
      ∀ registry, world.Registered registry vm → ¬ world.Walked registry
  | .runCallback registry _ => ¬ world.Walked registry
  | .start loop => ∀ vm, world.Registered loop.registry vm → world.alive vm = true
  | .drop loop => ∀ obj traversal, world.loop loop = some traversal →
      traversal.phase = .holding obj → ¬ world.LastReference obj
  | _ => True

/-- What the loops in progress have met so far: no entry that locked to null and no
modification of their registry; and all entries ahead are alive. -/
structure Steady (world : World Vm Service Thread) : Prop where
  loops : ∀ loop traversal, world.loop loop = some traversal →
    traversal.phase ≠ .failed ∧ traversal.modified = false
  entries : ∀ registry vm, world.Walked registry → world.Registered registry vm →
    world.alive vm = true

variable {handle : Vm → Int32} {world next : World Vm Service Thread}

omit [DecidableEq Vm] [DecidableEq Service] [DecidableEq Thread] in
theorem steady_initial : Steady (World.initial : World Vm Service Thread) where
  loops := by
    intro loop traversal found
    cases found
  entries := by
    intro registry vm walked
    obtain ⟨loop, traversal, found, _⟩ := walked
    cases found

omit [DecidableEq Vm] [DecidableEq Service] [DecidableEq Thread] in
theorem alive_iff {vm : Vm} :
    world.alive vm = true ↔ ∃ object, world.object vm = some object ∧ 0 < object.useCount := by
  unfold World.alive
  cases world.object vm <;> simp

omit [DecidableEq Service] [DecidableEq Thread] in
theorem alive_setObject (vm other : Vm) (object : Object Service) :
    (world.setObject vm object).alive other =
      if other = vm then decide (0 < object.useCount) else world.alive other := by
  unfold World.alive World.setObject
  by_cases same : other = vm
  · subst other
    simp
  · simp [same]

omit [DecidableEq Service] [DecidableEq Thread] in
/-- Changing the owners of a VM: it must stay alive if it is in a walked registry. -/
theorem Steady.setObject (steady : Steady world) (vm : Vm) (object : Object Service)
    (kept : ∀ registry, world.Walked registry → world.Registered registry vm →
      0 < object.useCount) : Steady (world.setObject vm object) where
  loops := steady.loops
  entries := by
    intro registry other walked registered
    rw [alive_setObject]
    split
    · subst other
      exact decide_eq_true (kept registry walked registered)
    · exact steady.entries registry other walked registered

omit [DecidableEq Vm] in
/-- Changing the state of one loop, or ending it. -/
theorem Steady.setLoop (steady : Steady world) (loop : Loop Service Thread)
    (traversal : Option (Traversal Vm))
    (fine : ∀ new, traversal = some new → new.phase ≠ .failed ∧ new.modified = false ∧
      ∀ vm, world.Registered loop.registry vm → world.alive vm = true) :
    Steady (world.setLoop loop traversal) where
  loops := by
    intro other new found
    by_cases same : other = loop
    · subst other
      have set : traversal = some new := by
        simpa only [World.setLoop, Function.update_self] using found
      exact ⟨(fine new set).1, (fine new set).2.1⟩
    · have old : world.loop other = some new := by
        simpa only [World.setLoop, Function.update_of_ne same] using found
      exact steady.loops other new old
  entries := by
    intro registry vm walked registered
    obtain ⟨other, new, found, rfl⟩ := walked
    by_cases same : other = loop
    · subst other
      have set : traversal = some new := by
        simpa only [World.setLoop, Function.update_self] using found
      exact (fine new set).2.2 vm registered
    · have old : world.loop other = some new := by
        simpa only [World.setLoop, Function.update_of_ne same] using found
      exact steady.entries other.registry vm ⟨other, new, old, rfl⟩ registered

omit [DecidableEq Vm] [DecidableEq Thread] in
/-- Modifying a registry that no loop walks. -/
theorem Steady.modify (steady : Steady world) (registry : Registry Service)
    (register : Register Int32 Vm) (unwalked : ¬ world.Walked registry) :
    Steady (world.modify registry register) := by
  have same : (world.modify registry register).loop = world.loop := by
    funext loop
    simp only [World.modify]
    split
    · rename_i mine
      cases found : world.loop loop with
      | none => rfl
      | some traversal => exact absurd ⟨loop, traversal, found, mine⟩ unwalked
    · rfl
  constructor
  · rw [same]
    exact steady.loops
  · intro other vm walked registered
    obtain ⟨loop, traversal, found, rfl⟩ := walked
    obtain ⟨key, entry⟩ := registered
    rw [same] at found
    have different : loop.registry ≠ registry := fun mine =>
      unwalked ⟨loop, traversal, found, mine⟩
    simp only [World.modify, Function.update_of_ne different] at entry
    exact steady.entries loop.registry vm ⟨loop, traversal, found, rfl⟩ ⟨key, entry⟩

omit [DecidableEq Vm] [DecidableEq Service] [DecidableEq Thread] in
/-- Another reference is left when a reference is dropped that is not the last one. -/
theorem one_lt_useCount {vm : Vm} {object : Object Service}
    (more : ¬ world.LastReference vm) (constructed : world.object vm = some object) :
    1 < object.useCount := by
  by_contra few
  apply more
  intro other same
  rw [constructed] at same
  cases Option.some.inj same
  omega

omit [DecidableEq Vm] [DecidableEq Service] [DecidableEq Thread] in
/-- The entries ahead of a loop in progress are alive. -/
theorem Steady.ahead (steady : Steady world) {loop : Loop Service Thread}
    {traversal : Traversal Vm} (walking : world.loop loop = some traversal) (vm : Vm)
    (registered : world.Registered loop.registry vm) : world.alive vm = true :=
  steady.entries loop.registry vm ⟨loop, traversal, walking, rfl⟩ registered

/-- The object of the visited entry gets one more reference. -/
theorem Steady.visit (steady : Steady world) {loop : Loop Service Thread}
    (stepped : step handle world (.visit loop) = some next) : Steady next := by
  simp only [Iteration.step] at stepped
  split at stepped
  · rename_i key modified walking
    split at stepped
    · rename_i weak entry
      -- the entry is ahead of the loop, so it locks to a living object
      have living := steady.ahead walking weak ⟨key, entry⟩
      have locked : lock world.alive weak = some weak :=
        Register.lock_eq_some.mpr ⟨living, rfl⟩
      obtain ⟨object, constructed, owned⟩ := alive_iff.mp living
      simp only [locked, constructed] at stepped
      cases stepped
      have kept := steady.setObject weak
        { object with temporaries := object.temporaries + 1 } (fun _ _ _ => by
          simp only [Object.useCount]
          omega)
      apply kept.setLoop loop _
      intro new set
      cases set
      exact ⟨nofun, (steady.loops loop _ walking).2, kept.ahead walking⟩
    · cases stepped
  · cases stepped

/-- The reference of the loop is not the last one when it is dropped. -/
theorem Steady.drop (steady : Steady world) {loop : Loop Service Thread}
    (undisturbed : Undisturbed world (.drop loop))
    (stepped : step handle world (.drop loop) = some next) : Steady next := by
  simp only [Iteration.step] at stepped
  split at stepped
  · rename_i position obj modified walking
    split at stepped
    · rename_i object constructed
      cases stepped
      have more := one_lt_useCount (undisturbed obj _ walking rfl) constructed
      have kept := steady.setObject obj
        { object with temporaries := object.temporaries - 1 } (fun _ _ _ => by
          simp only [Object.useCount] at more ⊢
          omega)
      apply kept.setLoop loop _
      intro new set
      cases set
      refine ⟨?_, (steady.loops loop _ walking).2, kept.ahead walking⟩
      split <;> exact nofun
    · cases stepped
  · cases stepped

/-- The registry is the one that the loop started with, so the iterator is good to advance. -/
theorem Steady.advance (steady : Steady world) {loop : Loop Service Thread}
    (stepped : step handle world (.advance loop) = some next) : Steady next := by
  simp only [Iteration.step] at stepped
  split at stepped
  · rename_i key phase modified walking
    have fine := (steady.loops loop _ walking).2
    have kept : Steady (world.setLoop loop (some
        { position := (world.map_ loop.registry).map_.getKeyGT? key, phase := .ready,
          modified })) := by
      apply steady.setLoop loop _
      intro new set
      cases set
      exact ⟨nofun, fine, steady.ahead walking⟩
    split at stepped
    · cases stepped
      exact kept
    · split at stepped
      · cases stepped
        exact kept
      · cases stepped
    · cases stepped
  · cases stepped

/-- A registry that is walked gets no entry. -/
theorem Steady.checkIn (steady : Steady world) {registry : Registry Service} {vm : Vm}
    (unwalked : ¬ world.Walked registry)
    (stepped : step handle world (.checkIn registry vm) = some next) : Steady next := by
  simp only [Iteration.step] at stepped
  split at stepped
  · split at stepped
    · cases stepped
    · rename_i owned
      split at stepped
      · cases stepped
        apply (steady.modify registry _ unwalked).setObject vm _
        intro _ _ _
        exact Nat.pos_of_ne_zero owned
      · cases stepped
        exact steady
  · cases stepped

/-- A VM in a registry that is walked keeps an owner. -/
theorem Steady.release (steady : Steady world) {vm : Vm}
    (undisturbed : Undisturbed world (.release vm))
    (stepped : step handle world (.release vm) = some next) : Steady next := by
  simp only [Iteration.step] at stepped
  split at stepped
  · rename_i object constructed
    split at stepped
    · cases stepped
    · cases stepped
      apply steady.setObject vm _
      intro registry walked registered
      have more := one_lt_useCount
        (fun last => undisturbed last registry registered walked) constructed
      simp only [Object.useCount] at more ⊢
      omega
  · cases stepped

/-- A registry that is walked loses no entry. -/
theorem Steady.runCallback (steady : Steady world) {registry : Registry Service} {vm : Vm}
    (unwalked : ¬ world.Walked registry)
    (stepped : step handle world (.runCallback registry vm) = some next) : Steady next := by
  simp only [Iteration.step] at stepped
  split at stepped
  · rename_i object constructed
    split at stepped
    · cases stepped
      have modified := steady.modify registry
        ((world.map_ registry).removeItemCallback (handle vm)) unwalked
      apply modified.setObject vm _
      intro other walked registered
      obtain ⟨same, found, owned⟩ := alive_iff.mp (modified.entries other vm walked registered)
      rw [show same = object from Option.some.inj (found.symm.trans constructed)] at owned
      exact owned
    · cases stepped
  · cases stepped

/-- Each step that disturbs no loop keeps the loops steady. -/
theorem Steady.step (steady : Steady world) {event : Event Vm Service Thread}
    (undisturbed : Undisturbed world event) (stepped : step handle world event = some next) :
    Steady next := by
  cases event with
  | construct vm =>
      simp only [Iteration.step] at stepped
      split at stepped
      · cases stepped
        exact steady.setObject vm _ (fun _ _ _ => Nat.one_pos)
      · cases stepped
  | checkIn registry vm => exact steady.checkIn undisturbed stepped
  | fetch registry key =>
      simp only [Iteration.step] at stepped
      split at stepped
      · split at stepped
        · cases stepped
          apply steady.setObject _ _
          intro _ _ _
          simp only [Object.useCount]
          omega
        · cases stepped
      · cases stepped
        exact steady
  | release vm => exact steady.release undisturbed stepped
  | runCallback registry vm => exact steady.runCallback undisturbed stepped
  | start loop =>
      simp only [Iteration.step] at stepped
      split at stepped
      · cases stepped
        apply steady.setLoop loop _
        intro new set
        cases set
        exact ⟨nofun, rfl, undisturbed⟩
      · cases stepped
  | visit loop => exact steady.visit stepped
  | stop info =>
      simp only [Iteration.step] at stepped
      split at stepped
      · split at stepped
        · cases stepped
          refine (steady.setObject _ _ (fun _ _ _ => ?_)).setLoop _ none (fun _ set => by cases set)
          simp only [Object.useCount]
          omega
        · cases stepped
      · cases stepped
  | drop loop => exact steady.drop undisturbed stepped
  | advance loop => exact steady.advance stepped
  | finish loop =>
      simp only [Iteration.step] at stepped
      split at stepped
      · cases stepped
        exact steady.setLoop loop none (fun new set => by cases set)
      · cases stepped

/-- **Loops that are not disturbed.** In every run in which no VM is born into or dies out
of a registry while a loop walks it, no visited entry locks to null, and no registry is
modified between the start and the end of a loop. -/
theorem steady_of_undisturbed {events : List (Event Vm Service Thread)}
    {last : World Vm Service Thread}
    (undisturbed : (machine handle).Guarded Undisturbed World.initial events)
    (ran : (machine handle).run events = some last) :
    ∀ loop traversal, last.loop loop = some traversal →
      traversal.phase ≠ .failed ∧ traversal.modified = false := by
  have steady := (machine handle).run_invariant_of_guarded Undisturbed Steady steady_initial
    (fun _ _ _ steady undisturbed stepped => steady.step undisturbed stepped) events last
    undisturbed ran
  exact steady.loops

/-- A VM that is checked in loses its last owner, and the loop comes before its callback. -/
def visitDead : List (Event Nat Unit Unit) :=
  [.construct 1, .checkIn (.service ()) 1, .checkIn .contextMgr 1, .release 1,
    .start (.pushMsg2FreeVm ()), .visit (.pushMsg2FreeVm ())]

/-- The loop's own temporary is the last owner of the VM it visits. -/
def dropLast : List (Event Nat Unit Unit) :=
  [.construct 1, .checkIn (.service ()) 1, .checkIn .contextMgr 1, .start (.iAmReady ()),
    .visit (.iAmReady ()), .release 1, .drop (.iAmReady ()), .runCallback .contextMgr 1]

/-- In `visitDead` the assertion fails, and in `dropLast` the loop's own thread erases the
entry under its iterator. -/
theorem visitDead_fails_and_dropLast_modifies :
    (∃ world, (machine Int32.ofNat).run visitDead = some world ∧
      ∃ traversal, world.loop (.pushMsg2FreeVm ()) = some traversal ∧
        traversal.phase = .failed) ∧
    (∃ world, (machine Int32.ofNat).run dropLast = some world ∧
      ∃ traversal, world.loop (.iAmReady ()) = some traversal ∧
        traversal.phase = .destroying 1 ∧ traversal.modified = true ∧
        (world.map_ .contextMgr).map_[(1 : Int32)]? = none) := by
  refine ⟨⟨_, rfl, _, rfl, rfl⟩, ⟨_, rfl, _, rfl, rfl, rfl, by decide⟩⟩

/-- A loop over the two VMs of a service. Before it comes to the second one, another thread takes
a reference to the first one and drops it. -/
def visitLiving : List (Event Nat Unit Unit) :=
  [.construct 1, .construct 2, .checkIn (.service ()) 1, .checkIn (.service ()) 2,
    .start (.pushMsg2FreeVm ()), .visit (.pushMsg2FreeVm ()), .fetch (.service ()) 1,
    .drop (.pushMsg2FreeVm ()), .release 1, .advance (.pushMsg2FreeVm ()),
    .visit (.pushMsg2FreeVm ())]

/-- The loop holds the second VM then. -/
theorem steady_of_undisturbed_visitLiving :
    ∃ world traversal, (machine Int32.ofNat).run visitLiving = some world ∧
      world.loop (.pushMsg2FreeVm ()) = some traversal ∧ traversal.phase = .holding 2 ∧
      traversal.phase ≠ .failed ∧ traversal.modified = false := by
  have runs : ∃ world traversal, (machine Int32.ofNat).run visitLiving = some world ∧
      world.loop (.pushMsg2FreeVm ()) = some traversal ∧ traversal.phase = .holding 2 :=
    ⟨_, _, rfl, rfl, rfl⟩
  obtain ⟨world, traversal, ran, walking, holds⟩ := runs
  refine ⟨world, traversal, ran, walking, holds, steady_of_undisturbed ?_ ran _ _ walking⟩
  refine .cons trivial rfl <| .cons trivial rfl <| .cons ?_ rfl <| .cons ?_ rfl <|
    .cons ?_ rfl <| .cons trivial rfl <| .cons trivial rfl <| .cons ?_ rfl <|
    .cons ?_ rfl <| .cons trivial rfl <| .cons trivial rfl trivial
  · rintro ⟨loop, traversal, found, _⟩
    cases found
  · rintro ⟨loop, traversal, found, _⟩
    cases loop <;> cases found
  · rintro vm ⟨key, entry⟩
    change (Std.TreeMap.insert (Std.TreeMap.insert ∅ (1 : Int32) 1) (2 : Int32) 2)[key]? =
      some vm at entry
    rw [Std.TreeMap.getElem?_insert, Std.TreeMap.getElem?_insert] at entry
    split at entry
    · cases entry
      rfl
    · split at entry
      · cases entry
        rfl
      · simp at entry
  · intro obj traversal walking holding last
    cases walking
    cases holding
    exact absurd (last _ rfl) (by decide)
  · intro last
    exact absurd (last _ rfl) (by decide)

end Iteration

end EasyLua
