import EasyLua.Foundation.Machine

/-!
# Starting a service

`startService` waits on a `Waiter` in its own frame while a detached thread runs
`threadFunc`. The thread's `main` puts the address of the `Waiter` into the registry of
its Lua state; `cThisVM.__new__` notifies through this entry and clears it, and
`threadFunc` notifies once more after `main` has returned. `notify` takes its steps one
by one under the `Waiter`'s mutex. The parent reads the two numbers without it.
-/

namespace EasyLua

namespace StartService

/-- A handle: `++lastHandle_` starts at one. -/
abbrev Handle := { value : UInt32 // value ≠ 0 }

/-- What the `main` of the child does: the handles of its VM and of its service if it
creates a VM (it can create only one), and whether it returns. -/
structure Script where
  creates : Option (Handle × Handle)
  returns : Bool

/-- The fields of `Waiter`; `locked` tells whether a `notify` holds `mutex_`. -/
structure Waiter where
  quitFlag_ : Bool := false
  vmId_ : UInt32 := 0
  serviceId_ : UInt32 := 0
  locked : Bool := false
  deriving DecidableEq

/-- The next step of a `notify`. -/
inductive Progress
  | lock
  | setQuitFlag
  | setVmId
  | setServiceId
  | notifyAll
  deriving DecidableEq

/-- One step of `Waiter::notify`, and the step after it; no result while the mutex is held
by another thread. -/
def Waiter.notifyStep (waiter : Waiter) (vmId serviceId : UInt32) :
    Progress → Option (Waiter × Option Progress)
  | .lock =>
      if waiter.locked then none else some ({ waiter with locked := true }, some .setQuitFlag)
  | .setQuitFlag => some ({ waiter with quitFlag_ := true }, some .setVmId)
  | .setVmId => some ({ waiter with vmId_ := vmId }, some .setServiceId)
  | .setServiceId => some ({ waiter with serviceId_ := serviceId }, some .notifyAll)
  | .notifyAll => some ({ waiter with locked := false }, none)

/-- Where the child stands. -/
inductive Child
  /-- In `main`; the registry entry still holds the `Waiter`, or it has been cleared. -/
  | main (cleared : Bool)
  /-- In `notify(vmId, serviceId)`, called by `threadFunc` or by `__new__`. -/
  | notify (byThreadFunc : Bool) (vmId serviceId : UInt32) (progress : Progress)
  | ended
  deriving DecidableEq

/-- Where the parent stands, with the numbers it has read. -/
inductive Parent
  | waiting
  | woken
  | readVmId (vmId : UInt32)
  | readServiceId (vmId serviceId : UInt32)
  | returned (vmId serviceId : UInt32)
  deriving DecidableEq

/-- Both threads and the `Waiter`. `late` records whether a step of a `notify` has been
taken after the frame that owned the `Waiter` was gone. -/
structure World where
  waiter : Waiter
  child : Child
  parent : Parent
  late : Bool
  deriving DecidableEq

/-- One step of the child or of the parent. -/
inductive Event
  /-- `cThisVM.__new__` finds the registry entry and calls `notify`. -/
  | newVm
  /-- `main` returns, and `threadFunc` calls `notify(0, 0)`. -/
  | mainReturns
  /-- The next step of the `notify` in progress. -/
  | notify
  /-- `wait` gets the mutex, sees `quitFlag_` and returns. -/
  | wake
  | getVmId
  | getServiceId
  /-- `startService` returns; the lifetime of the `Waiter` ends. -/
  | return_
  deriving DecidableEq

/-- `startService` has returned. -/
def Parent.gone : Parent → Bool
  | .returned _ _ => true
  | _ => false

/-- One step; no result when the event is not enabled. -/
def step (script : Script) (world : World) : Event → Option World
  | .newVm =>
      match world.child, script.creates with
      | .main false, some (vm, service) =>
          some { world with child := .notify false vm.val service.val .lock }
      | _, _ => none
  | .mainReturns =>
      match world.child with
      | .main cleared =>
          -- a script that creates a VM has done so before its end
          if script.returns ∧ cleared = script.creates.isSome then
            some { world with child := .notify true 0 0 .lock }
          else none
      | _ => none
  | .notify =>
      match world.child with
      | .notify byThreadFunc vmId serviceId progress =>
          match world.waiter.notifyStep vmId serviceId progress with
          | some (waiter, rest) =>
              some { world with
                waiter
                child :=
                  match rest with
                  | some progress => .notify byThreadFunc vmId serviceId progress
                  | none => if byThreadFunc then .ended else .main true
                late := world.late || world.parent.gone }
          | none => none
      | _ => none
  | .wake =>
      if world.parent = .waiting ∧ world.waiter.quitFlag_ ∧ ¬ world.waiter.locked then
        some { world with parent := .woken }
      else none
  | .getVmId =>
      match world.parent with
      | .woken => some { world with parent := .readVmId world.waiter.vmId_ }
      | _ => none
  | .getServiceId =>
      match world.parent with
      | .readVmId vmId => some { world with parent := .readServiceId vmId world.waiter.serviceId_ }
      | _ => none
  | .return_ =>
      match world.parent with
      | .readServiceId vmId serviceId => some { world with parent := .returned vmId serviceId }
      | _ => none

/-- One call of `startService`. -/
def machine (script : Script) : Machine World Event where
  init := { waiter := {}, child := .main false, parent := .waiting, late := false }
  step := step script

/-- A script that creates the first VM of the first service, and returns. -/
def firstVm : Script where
  creates := some (⟨1, by decide⟩, ⟨1, by decide⟩)
  returns := true

/-- The child has not completed its first `notify`. -/
def Child.Unannounced (script : Script) : Child → Prop
  | .main cleared => cleared = false
  | .notify byThreadFunc _ _ _ => byThreadFunc = true → script.creates = none
  | .ended => False

/-- The first `notify` is complete before the parent goes on: until then the parent waits,
and `quitFlag_` is only set while the mutex is held. Which `notify` is in progress and
how `main` goes on follow the script. -/
structure Orderly (script : Script) (world : World) : Prop where
  waits : world.child.Unannounced script → world.parent = .waiting
  quiet : world.child.Unannounced script → world.waiter.quitFlag_ = true →
    world.waiter.locked = true
  locked : ∀ byThreadFunc vmId serviceId progress,
    world.child = .notify byThreadFunc vmId serviceId progress → progress ≠ .lock →
      world.waiter.locked = true
  final : ∀ vmId serviceId progress, world.child = .notify true vmId serviceId progress →
    script.returns = true ∧ vmId = 0 ∧ serviceId = 0
  cleared : world.child = .main true → script.creates ≠ none
  byNew : ∀ vmId serviceId progress, world.child = .notify false vmId serviceId progress →
    script.creates ≠ none

variable {script : Script} {world next : World}

theorem orderly_initial (script : Script) : Orderly script (machine script).init where
  waits := fun _ => rfl
  quiet := fun _ => nofun
  locked := nofun
  final := nofun
  cleared := nofun
  byNew := nofun

theorem step_newVm (stepped : step script world .newVm = some next) :
    ∃ vm service, world.child = .main false ∧ script.creates = some (vm, service) ∧
      next = { world with child := .notify false vm.val service.val .lock } := by
  simp only [step] at stepped
  split at stepped
  · rename_i vm service inMain creates
    exact ⟨vm, service, inMain, creates, (Option.some.inj stepped).symm⟩
  · cases stepped

theorem step_mainReturns (stepped : step script world .mainReturns = some next) :
    world.child = .main script.creates.isSome ∧ script.returns = true ∧
      next = { world with child := .notify true 0 0 .lock } := by
  simp only [step] at stepped
  split at stepped
  · rename_i cleared inMain
    split at stepped
    · rename_i may
      exact ⟨may.2 ▸ inMain, may.1, (Option.some.inj stepped).symm⟩
    · cases stepped
  · cases stepped

/-- What one step of a `notify` does. -/
theorem step_notify (stepped : step script world .notify = some next) :
    ∃ byThreadFunc vmId serviceId progress waiter rest,
      world.child = .notify byThreadFunc vmId serviceId progress ∧
      world.waiter.notifyStep vmId serviceId progress = some (waiter, rest) ∧
      next = { world with
        waiter
        child :=
          match rest with
          | some progress => .notify byThreadFunc vmId serviceId progress
          | none => if byThreadFunc then .ended else .main true
        late := world.late || world.parent.gone } := by
  simp only [step] at stepped
  split at stepped
  · rename_i byThreadFunc vmId serviceId progress inNotify
    split at stepped
    · rename_i waiter rest notified
      exact ⟨byThreadFunc, vmId, serviceId, progress, waiter, rest, inNotify, notified,
        (Option.some.inj stepped).symm⟩
    · cases stepped
  · cases stepped

theorem step_wake (stepped : step script world .wake = some next) :
    world.parent = .waiting ∧ world.waiter.quitFlag_ = true ∧ world.waiter.locked = false ∧
      next = { world with parent := .woken } := by
  simp only [step] at stepped
  split at stepped
  · rename_i may
    exact ⟨may.1, may.2.1, Bool.eq_false_iff.mpr may.2.2, (Option.some.inj stepped).symm⟩
  · cases stepped

theorem step_getVmId (stepped : step script world .getVmId = some next) :
    world.parent = .woken ∧ next = { world with parent := .readVmId world.waiter.vmId_ } := by
  simp only [step] at stepped
  split at stepped
  · exact ⟨‹_›, (Option.some.inj stepped).symm⟩
  · cases stepped

theorem step_getServiceId (stepped : step script world .getServiceId = some next) :
    ∃ vmId, world.parent = .readVmId vmId ∧
      next = { world with parent := .readServiceId vmId world.waiter.serviceId_ } := by
  simp only [step] at stepped
  split at stepped
  · exact ⟨_, ‹_›, (Option.some.inj stepped).symm⟩
  · cases stepped

theorem step_return (stepped : step script world .return_ = some next) :
    ∃ vmId serviceId, world.parent = .readServiceId vmId serviceId ∧
      next = { world with parent := .returned vmId serviceId } := by
  simp only [step] at stepped
  split at stepped
  · exact ⟨_, _, ‹_›, (Option.some.inj stepped).symm⟩
  · cases stepped

/-- A `notify` that goes on holds the mutex. -/
theorem Waiter.notifyStep_locked {waiter after : Waiter} {vmId serviceId : UInt32}
    {progress following : Progress}
    (notified : waiter.notifyStep vmId serviceId progress = some (after, some following))
    (held : progress ≠ .lock → waiter.locked = true) :
    after.locked = true ∧ following ≠ .lock := by
  cases progress with
  | lock =>
      simp only [Waiter.notifyStep] at notified
      split at notified
      · cases notified
      · cases notified
        exact ⟨rfl, nofun⟩
  | setQuitFlag =>
      cases notified
      exact ⟨held nofun, nofun⟩
  | setVmId =>
      cases notified
      exact ⟨held nofun, nofun⟩
  | setServiceId =>
      cases notified
      exact ⟨held nofun, nofun⟩
  | notifyAll => cases notified

/-- The parent leaves `wait` only after the first `notify`. -/
theorem Orderly.announced (orderly : Orderly script world) (left : world.parent ≠ .waiting) :
    ¬ world.child.Unannounced script :=
  fun unannounced => left (orderly.waits unannounced)

/-- A step of the parent after `wait` keeps the start orderly. -/
theorem Orderly.step_parent (orderly : Orderly script world) (left : world.parent ≠ .waiting)
    (parent : Parent) : Orderly script { world with parent } :=
  { orderly with waits := fun unannounced => absurd unannounced (orderly.announced left) }

theorem Orderly.step (orderly : Orderly script world) {event : Event}
    (stepped : step script world event = some next) : Orderly script next := by
  cases event with
  | newVm =>
      obtain ⟨vm, service, inMain, creates, rfl⟩ := step_newVm stepped
      have unannounced : world.child.Unannounced script := by
        rw [inMain]
        rfl
      refine ⟨fun _ => orderly.waits unannounced, fun _ => orderly.quiet unannounced, ?_, nofun,
        nofun, fun _ _ _ _ => by simp [creates]⟩
      intro _ _ _ _ same notLock
      cases same
      exact absurd rfl notLock
  | mainReturns =>
      obtain ⟨inMain, returns, rfl⟩ := step_mainReturns stepped
      have same : Child.Unannounced script (.notify true 0 0 .lock) →
          world.child.Unannounced script := by
        intro unannounced
        rw [inMain, unannounced rfl]
        rfl
      refine ⟨fun first => orderly.waits (same first), fun first => orderly.quiet (same first),
        ?_, ?_, nofun, nofun⟩
      · intro _ _ _ _ same notLock
        cases same
        exact absurd rfl notLock
      · intro _ _ _ same
        cases same
        exact ⟨returns, rfl, rfl⟩
  | notify =>
      obtain ⟨byThreadFunc, vmId, serviceId, progress, waiter, rest, inNotify, notified, rfl⟩ :=
        step_notify stepped
      cases rest with
      | some following =>
          obtain ⟨held, _⟩ := Waiter.notifyStep_locked notified
            (orderly.locked byThreadFunc vmId serviceId progress inNotify)
          refine ⟨fun first => orderly.waits ?_, fun _ _ => held, fun _ _ _ _ _ _ => held,
            ?_, nofun, ?_⟩
          · rw [inNotify]
            exact first
          · intro _ _ _ same
            cases same
            exact orderly.final vmId serviceId progress inNotify
          · intro _ _ _ same
            cases same
            exact orderly.byNew vmId serviceId progress inNotify
      | none =>
          -- the `notify` is complete, and so is the first one
          cases byThreadFunc with
          | true => exact ⟨nofun, nofun, nofun, nofun, nofun, nofun⟩
          | false =>
              exact ⟨nofun, nofun, nofun, nofun,
                fun _ => orderly.byNew vmId serviceId progress inNotify, nofun⟩
  | wake =>
      obtain ⟨waiting, flag, free, rfl⟩ := step_wake stepped
      have announced : ¬ world.child.Unannounced script := by
        intro unannounced
        rw [orderly.quiet unannounced flag] at free
        cases free
      exact { orderly with waits := fun first => absurd first announced }
  | getVmId =>
      obtain ⟨woken, rfl⟩ := step_getVmId stepped
      exact orderly.step_parent (by rw [woken]; exact nofun) _
  | getServiceId =>
      obtain ⟨vmId, read, rfl⟩ := step_getServiceId stepped
      exact orderly.step_parent (by rw [read]; exact nofun) _
  | return_ =>
      obtain ⟨vmId, serviceId, read, rfl⟩ := step_return stepped
      exact orderly.step_parent (by rw [read]; exact nofun) _

theorem orderly_of_run {events : List Event} {world : World}
    (ran : (machine script).run events = some world) : Orderly script world :=
  (machine script).run_invariant (Orderly script) (orderly_initial script)
    (fun _ _ _ orderly stepped => orderly.step stepped) events world ran

/-- After the first `notify` of a script that creates a VM, only `threadFunc` notifies. -/
theorem Orderly.byThreadFunc (orderly : Orderly script world) (left : world.parent ≠ .waiting)
    {byThreadFunc : Bool} {vmId serviceId : UInt32} {progress : Progress}
    (inNotify : world.child = .notify byThreadFunc vmId serviceId progress) :
    byThreadFunc = true ∧ script.creates ≠ none := by
  have announced := orderly.announced left
  rw [inNotify] at announced
  exact Classical.not_imp.mp announced

end StartService

end EasyLua
