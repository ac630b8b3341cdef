import EasyLua.Service.StartService

/-!
# Notifications and the lifetime of the `Waiter`

`startService` returns after the first notification. A script that creates a VM and
returns is notified for twice, and nothing makes the parent wait for the second
notification.
-/

namespace EasyLua.StartService

variable {script : Script} {world next : World}

/-- No step of a `notify` comes after the return of `startService`, unless `threadFunc`
notifies for a script that has created a VM. -/
theorem late_step (orderly : Orderly script world) (early : world.late = false)
    (once : ¬ (script.creates ≠ none ∧ script.returns = true)) {event : Event}
    (stepped : step script world event = some next) : next.late = false := by
  cases event with
  | newVm =>
      obtain ⟨_, _, _, _, rfl⟩ := step_newVm stepped
      exact early
  | mainReturns =>
      obtain ⟨_, _, rfl⟩ := step_mainReturns stepped
      exact early
  | notify =>
      obtain ⟨byThreadFunc, vmId, serviceId, progress, waiter, rest, inNotify, _, rfl⟩ :=
        step_notify stepped
      have present : world.parent.gone = false := by
        by_contra gone
        have left : world.parent ≠ .waiting := by
          intro waiting
          rw [waiting] at gone
          exact gone rfl
        obtain ⟨rfl, creates⟩ := orderly.byThreadFunc left inNotify
        exact once ⟨creates, (orderly.final vmId serviceId progress inNotify).1⟩
      change (world.late || world.parent.gone) = false
      rw [early, present, Bool.or_self]
  | wake =>
      obtain ⟨_, _, _, rfl⟩ := step_wake stepped
      exact early
  | getVmId =>
      obtain ⟨_, rfl⟩ := step_getVmId stepped
      exact early
  | getServiceId =>
      obtain ⟨_, _, rfl⟩ := step_getServiceId stepped
      exact early
  | return_ =>
      obtain ⟨_, _, _, rfl⟩ := step_return stepped
      exact early

/-- The parent returns at once, and `main` returns later. -/
def returnFirst : List Event :=
  [.newVm, .notify, .notify, .notify, .notify, .notify, .wake, .getVmId, .getServiceId,
    .return_, .mainReturns, .notify]

/-- A script that creates a VM and returns can notify a dead `Waiter`. -/
theorem returnFirst_late (vm service : Handle) :
    ∃ last, (machine { creates := some (vm, service), returns := true }).run returnFirst =
      some last ∧ last.late = true :=
  ⟨_, rfl, rfl⟩

/-- **Lifetime of the `Waiter`, exactly.** For every interleaving all steps of the
notifications come before the return of `startService` if and only if the script does
not both create a VM and return. -/
theorem never_late_iff (script : Script) :
    (∀ events last, (machine script).run events = some last → last.late = false) ↔
      ¬ (script.creates ≠ none ∧ script.returns = true) := by
  constructor
  · intro timely both
    obtain ⟨creates, returns⟩ := both
    obtain ⟨⟨vm, service⟩, some_⟩ := Option.ne_none_iff_exists'.mp creates
    obtain rfl : script = { creates := some (vm, service), returns := true } := by
      cases script
      cases some_
      cases returns
      rfl
    obtain ⟨last, ran, late⟩ := returnFirst_late vm service
    rw [timely returnFirst last ran] at late
    cases late
  · intro once events last ran
    have kept := (machine script).run_invariant
      (fun world => Orderly script world ∧ world.late = false)
      ⟨orderly_initial script, rfl⟩
      (fun _ _ _ kept stepped =>
        ⟨kept.1.step stepped, late_step kept.1 kept.2 once stepped⟩) events last ran
    exact kept.2

/-- In `returnFirst` a notification comes after the return of `startService`. -/
theorem returnFirst_late_firstVm :
    ∃ last, (machine firstVm).run returnFirst = some last ∧ last.late = true :=
  ⟨_, rfl, rfl⟩

end EasyLua.StartService
