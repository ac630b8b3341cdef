import EasyLua.Service.StartService

/-!
# What `startService` returns

The getters read `vmId_` and `serviceId_` one after the other and without the mutex. The
numbers of the VM are returned as long as `threadFunc` overwrites each field only after
the parent has read it.
-/

namespace EasyLua.StartService

/-- The numbers that the parent should get. -/
def Script.vmId (script : Script) : UInt32 :=
  match script.creates with
  | some (vm, _) => vm.val
  | none => 0

def Script.serviceId (script : Script) : UInt32 :=
  match script.creates with
  | some (_, service) => service.val
  | none => 0

/-- The number read by `getVmId`. -/
def Parent.vmId? : Parent → Option UInt32
  | .readVmId vmId => some vmId
  | .readServiceId vmId _ => some vmId
  | .returned vmId _ => some vmId
  | _ => none

/-- The number read by `getServiceId`. -/
def Parent.serviceId? : Parent → Option UInt32
  | .readServiceId _ serviceId => some serviceId
  | .returned _ serviceId => some serviceId
  | _ => none

/-- The result reports the VM that was created, it is `(0, 0)` only if `main` has ended
without one, and it is one of the two notifications. -/
structure Reports (script : Script) (child : Child) (vmId serviceId : UInt32) : Prop where
  created : ∀ vm service, script.creates = some (vm, service) →
    vmId = vm.val ∧ serviceId = service.val
  ended : vmId = 0 ∧ serviceId = 0 → script.creates = none ∧ child = .ended
  unmixed : (vmId = 0 ∧ serviceId = 0) ∨ ∃ vm service, script.creates = some (vm, service) ∧
    vmId = vm.val ∧ serviceId = service.val

/-- When a VM was created, the `notify` of `threadFunc` sets a field only after the parent
has read it. -/
def ReadFirst (script : Script) (world : World) (event : Event) : Prop :=
  event = .notify → script.creates ≠ none → ∀ vmId serviceId,
    (world.child = .notify true vmId serviceId .setVmId → world.parent.vmId? ≠ none) ∧
    (world.child = .notify true vmId serviceId .setServiceId → world.parent.serviceId? ≠ none)

/-- The first `notify` has set `vmId_`. -/
def Child.SetVmId (script : Script) : Child → Prop
  | .main cleared => cleared = true
  | .notify byThreadFunc _ _ progress =>
      (byThreadFunc = true ∧ script.creates ≠ none) ∨ progress = .setServiceId ∨
        progress = .notifyAll
  | .ended => True

/-- The first `notify` has set `serviceId_`. -/
def Child.SetServiceId (script : Script) : Child → Prop
  | .main cleared => cleared = true
  | .notify byThreadFunc _ _ progress =>
      (byThreadFunc = true ∧ script.creates ≠ none) ∨ progress = .notifyAll
  | .ended => True

/-- The first `notify` sends the right numbers, they stand in the fields until the parent
has read them, and the parent has read no others. -/
structure Truthful (script : Script) (world : World) : Prop where
  sends : ∀ byThreadFunc vmId serviceId progress,
    world.child = .notify byThreadFunc vmId serviceId progress →
      world.child.Unannounced script → vmId = script.vmId ∧ serviceId = script.serviceId
  vmId : world.child.SetVmId script →
    world.waiter.vmId_ = script.vmId ∨ world.parent.vmId? ≠ none
  serviceId : world.child.SetServiceId script →
    world.waiter.serviceId_ = script.serviceId ∨ world.parent.serviceId? ≠ none
  readVmId : ∀ vmId, world.parent.vmId? = some vmId → vmId = script.vmId
  readServiceId : ∀ serviceId, world.parent.serviceId? = some serviceId →
    serviceId = script.serviceId

variable {script : Script} {world next : World}

theorem truthful_initial (script : Script) : Truthful script (machine script).init where
  sends := nofun
  vmId := nofun
  serviceId := nofun
  readVmId := nofun
  readServiceId := nofun

/-- Once the first `notify` is complete, both fields have been set. -/
theorem Child.set_of_announced {child : Child} (announced : ¬ child.Unannounced script) :
    child.SetVmId script ∧ child.SetServiceId script := by
  cases child with
  | main cleared => exact ⟨Bool.ne_false_iff.mp announced, Bool.ne_false_iff.mp announced⟩
  | notify byThreadFunc vmId serviceId progress =>
      have final := Classical.not_imp.mp announced
      exact ⟨Or.inl final, Or.inl final⟩
  | ended => exact ⟨trivial, trivial⟩

/-- Within a `notify` the numbers that it sends stay the same, so only the fields have to be
looked at. -/
theorem Truthful.advance (truthful : Truthful script world) {byThreadFunc : Bool}
    {vmId serviceId : UInt32} {progress following : Progress}
    (inNotify : world.child = .notify byThreadFunc vmId serviceId progress)
    (child : next.child = .notify byThreadFunc vmId serviceId following)
    (parent : next.parent = world.parent)
    (fieldVmId : Child.SetVmId script (.notify byThreadFunc vmId serviceId following) →
      next.waiter.vmId_ = script.vmId ∨ world.parent.vmId? ≠ none)
    (fieldServiceId : Child.SetServiceId script (.notify byThreadFunc vmId serviceId following) →
      next.waiter.serviceId_ = script.serviceId ∨ world.parent.serviceId? ≠ none) :
    Truthful script next := by
  have sends := truthful.sends byThreadFunc vmId serviceId progress inNotify
  rw [inNotify] at sends
  constructor
  · intro _ _ _ _ same unannounced
    rw [child] at same unannounced
    cases same
    exact sends unannounced
  · rw [child, parent]
    exact fieldVmId
  · rw [child, parent]
    exact fieldServiceId
  · rw [parent]
    exact truthful.readVmId
  · rw [parent]
    exact truthful.readServiceId

/-- A step of a `notify` overwrites a field with the right number, or after it was read. -/
theorem Truthful.step_notify (truthful : Truthful script world)
    (readFirst : ReadFirst script world .notify)
    (stepped : step script world .notify = some next) : Truthful script next := by
  obtain ⟨byThreadFunc, vmId, serviceId, progress, waiter, rest, inNotify, notified, rfl⟩ :=
    StartService.step_notify stepped
  have sends := truthful.sends byThreadFunc vmId serviceId progress inNotify
  have heldVmId := truthful.vmId
  have heldServiceId := truthful.serviceId
  have readFirst := readFirst rfl
  rw [inNotify] at sends heldVmId heldServiceId
  cases progress with
  | lock =>
      simp only [Waiter.notifyStep] at notified
      split at notified
      · cases notified
      · cases notified
        refine truthful.advance inNotify rfl rfl ?_ ?_
        · intro set
          apply heldVmId
          simpa [Child.SetVmId] using set
        · intro set
          apply heldServiceId
          simpa [Child.SetServiceId] using set
  | setQuitFlag =>
      cases notified
      refine truthful.advance inNotify rfl rfl ?_ ?_
      · intro set
        apply heldVmId
        simpa [Child.SetVmId] using set
      · intro set
        apply heldServiceId
        simpa [Child.SetServiceId] using set
  | setVmId =>
      cases notified
      refine truthful.advance inNotify rfl rfl ?_ ?_
      · intro _
        by_cases first : Child.Unannounced script (.notify byThreadFunc vmId serviceId .setVmId)
        · exact Or.inl (sends first).1
        · obtain ⟨rfl, creates⟩ := Classical.not_imp.mp first
          exact Or.inr ((readFirst creates vmId serviceId).1 inNotify)
      · intro set
        apply heldServiceId
        simpa [Child.SetServiceId] using set
  | setServiceId =>
      cases notified
      refine truthful.advance inNotify rfl rfl ?_ ?_
      · exact fun _ => heldVmId (Or.inr (Or.inl rfl))
      · intro _
        by_cases first :
          Child.Unannounced script (.notify byThreadFunc vmId serviceId .setServiceId)
        · exact Or.inl (sends first).2
        · obtain ⟨rfl, creates⟩ := Classical.not_imp.mp first
          exact Or.inr ((readFirst creates vmId serviceId).2 inNotify)
  | notifyAll =>
      cases notified
      refine ⟨?_, fun _ => heldVmId (Or.inr (Or.inr rfl)), fun _ => heldServiceId (Or.inr rfl),
        truthful.readVmId, truthful.readServiceId⟩
      intro _ _ _ _ again
      cases byThreadFunc <;> cases again

theorem Truthful.step (orderly : Orderly script world) (truthful : Truthful script world)
    {event : Event} (readFirst : ReadFirst script world event)
    (stepped : step script world event = some next) : Truthful script next := by
  cases event with
  | newVm =>
      obtain ⟨vm, service, inMain, creates, rfl⟩ := step_newVm stepped
      refine ⟨?_, ?_, ?_, truthful.readVmId, truthful.readServiceId⟩
      · intro _ _ _ _ same _
        cases same
        simp only [Script.vmId, Script.serviceId, creates, and_self]
      · rintro (⟨⟨⟩, _⟩ | ⟨⟨⟩⟩ | ⟨⟨⟩⟩)
      · rintro (⟨⟨⟩, _⟩ | ⟨⟨⟩⟩)
  | mainReturns =>
      obtain ⟨inMain, returns, rfl⟩ := step_mainReturns stepped
      refine ⟨?_, ?_, ?_, truthful.readVmId, truthful.readServiceId⟩
      · intro _ _ _ _ same unannounced
        cases same
        simp only [Script.vmId, Script.serviceId, unannounced rfl, and_self]
      · rintro (⟨_, creates⟩ | ⟨⟨⟩⟩ | ⟨⟨⟩⟩)
        apply truthful.vmId
        rw [inMain]
        exact Option.isSome_iff_ne_none.mpr creates
      · rintro (⟨_, creates⟩ | ⟨⟨⟩⟩)
        apply truthful.serviceId
        rw [inMain]
        exact Option.isSome_iff_ne_none.mpr creates
  | notify => exact truthful.step_notify readFirst stepped
  | wake =>
      obtain ⟨waiting, _, _, rfl⟩ := step_wake stepped
      have vmId := truthful.vmId
      have serviceId := truthful.serviceId
      rw [waiting] at vmId serviceId
      exact ⟨truthful.sends, vmId, serviceId, nofun, nofun⟩
  | getVmId =>
      obtain ⟨woken, rfl⟩ := step_getVmId stepped
      have announced := orderly.announced (by rw [woken]; exact nofun)
      have serviceId := truthful.serviceId
      rw [woken] at serviceId
      refine ⟨truthful.sends, fun _ => Or.inr nofun, serviceId, ?_, nofun⟩
      intro _ same
      cases same
      apply (truthful.vmId (Child.set_of_announced announced).1).resolve_right
      rw [woken]
      exact fun unread => unread rfl
  | getServiceId =>
      obtain ⟨vmId, read, rfl⟩ := step_getServiceId stepped
      have announced := orderly.announced (by rw [read]; exact nofun)
      refine ⟨truthful.sends, fun _ => Or.inr nofun, fun _ => Or.inr nofun, ?_, ?_⟩
      · intro _ same
        cases same
        exact truthful.readVmId vmId (by rw [read]; rfl)
      · intro _ same
        cases same
        apply (truthful.serviceId (Child.set_of_announced announced).2).resolve_right
        rw [read]
        exact fun unread => unread rfl
  | return_ =>
      obtain ⟨vmId, serviceId, read, rfl⟩ := step_return stepped
      refine ⟨truthful.sends, fun _ => Or.inr nofun, fun _ => Or.inr nofun, ?_, ?_⟩
      · intro _ same
        cases same
        exact truthful.readVmId vmId (by rw [read]; rfl)
      · intro _ same
        cases same
        exact truthful.readServiceId serviceId (by rw [read]; rfl)

/-- `threadFunc` has set `vmId_` to zero before the parent read it. -/
structure LostVmId (world : World) : Prop where
  child : world.child = .ended ∨ ∃ serviceId progress,
    world.child = .notify true 0 serviceId progress ∧
      (progress = .setServiceId ∨ progress = .notifyAll)
  field : world.waiter.vmId_ = 0
  read : ∀ vmId, world.parent.vmId? = some vmId → vmId = 0

/-- `threadFunc` has set `serviceId_` to zero before the parent read it. -/
structure LostServiceId (world : World) : Prop where
  child : world.child = .ended ∨ ∃ vmId, world.child = .notify true vmId 0 .notifyAll
  field : world.waiter.serviceId_ = 0
  read : ∀ serviceId, world.parent.serviceId? = some serviceId → serviceId = 0

/-! Behind `main` no VM is created, and it does not return again. -/

theorem not_step_newVm (past : ∀ cleared, world.child ≠ .main cleared) :
    step script world .newVm ≠ some next := by
  intro stepped
  obtain ⟨_, _, inMain, _, _⟩ := step_newVm stepped
  exact past false inMain

theorem not_step_mainReturns (past : ∀ cleared, world.child ≠ .main cleared) :
    step script world .mainReturns ≠ some next := by
  intro stepped
  obtain ⟨inMain, _, _⟩ := step_mainReturns stepped
  exact past _ inMain

theorem LostVmId.step (lost : LostVmId world) {event : Event}
    (stepped : step script world event = some next) : LostVmId next := by
  obtain ⟨child, field, read⟩ := lost
  have past : ∀ cleared, world.child ≠ .main cleared := by
    intro cleared inMain
    rw [inMain] at child
    obtain ⟨⟨⟩⟩ | ⟨_, _, ⟨⟩, _⟩ := child
  cases event with
  | newVm => exact absurd stepped (not_step_newVm past)
  | mainReturns => exact absurd stepped (not_step_mainReturns past)
  | notify =>
      obtain ⟨byThreadFunc, vmId, serviceId, progress, waiter, rest, inNotify, notified, rfl⟩ :=
        step_notify stepped
      rw [inNotify] at child
      obtain ⟨⟨⟩⟩ | ⟨_, _, ⟨⟩, rfl | rfl⟩ := child
      · cases notified
        exact ⟨Or.inr ⟨_, _, rfl, Or.inr rfl⟩, field, read⟩
      · cases notified
        exact ⟨Or.inl rfl, field, read⟩
  | wake =>
      obtain ⟨_, _, _, rfl⟩ := step_wake stepped
      exact ⟨child, field, nofun⟩
  | getVmId =>
      obtain ⟨_, rfl⟩ := step_getVmId stepped
      refine ⟨child, field, ?_⟩
      intro _ same
      cases same
      exact field
  | getServiceId =>
      obtain ⟨vmId, reading, rfl⟩ := step_getServiceId stepped
      refine ⟨child, field, ?_⟩
      intro _ same
      cases same
      exact read vmId (by rw [reading]; rfl)
  | return_ =>
      obtain ⟨vmId, _, reading, rfl⟩ := step_return stepped
      refine ⟨child, field, ?_⟩
      intro _ same
      cases same
      exact read vmId (by rw [reading]; rfl)

theorem LostServiceId.step (lost : LostServiceId world) {event : Event}
    (stepped : step script world event = some next) : LostServiceId next := by
  obtain ⟨child, field, read⟩ := lost
  have past : ∀ cleared, world.child ≠ .main cleared := by
    intro cleared inMain
    rw [inMain] at child
    obtain ⟨⟨⟩⟩ | ⟨_, ⟨⟩⟩ := child
  cases event with
  | newVm => exact absurd stepped (not_step_newVm past)
  | mainReturns => exact absurd stepped (not_step_mainReturns past)
  | notify =>
      obtain ⟨byThreadFunc, vmId, serviceId, progress, waiter, rest, inNotify, notified, rfl⟩ :=
        step_notify stepped
      rw [inNotify] at child
      obtain ⟨⟨⟩⟩ | ⟨_, ⟨⟩⟩ := child
      cases notified
      exact ⟨Or.inl rfl, field, read⟩
  | wake =>
      obtain ⟨_, _, _, rfl⟩ := step_wake stepped
      exact ⟨child, field, nofun⟩
  | getVmId =>
      obtain ⟨_, rfl⟩ := step_getVmId stepped
      exact ⟨child, field, nofun⟩
  | getServiceId =>
      obtain ⟨vmId, reading, rfl⟩ := step_getServiceId stepped
      refine ⟨child, field, ?_⟩
      intro _ same
      cases same
      exact field
  | return_ =>
      obtain ⟨_, serviceId, reading, rfl⟩ := step_return stepped
      refine ⟨child, field, ?_⟩
      intro _ same
      cases same
      exact read serviceId (by rw [reading]; rfl)

/-- A step that sets a field too early loses it. -/
theorem lost_of_not_readFirst (orderly : Orderly script world)
    (early : ¬ ReadFirst script world .notify) (stepped : step script world .notify = some next) :
    script.creates ≠ none ∧ (LostVmId next ∨ LostServiceId next) := by
  simp only [ReadFirst, forall_const, not_forall] at early
  obtain ⟨creates, vmId, serviceId, early⟩ := early
  refine ⟨creates, ?_⟩
  obtain ⟨_, _, _, _, waiter, rest, inNotify, notified, rfl⟩ := step_notify stepped
  rcases Classical.not_and_iff_not_or_not.mp early with vmIdEarly | serviceIdEarly
  · obtain ⟨setting, unread⟩ := Classical.not_imp.mp vmIdEarly
    obtain ⟨_, rfl, rfl⟩ := orderly.final vmId serviceId _ setting
    rw [setting] at inNotify
    cases inNotify
    cases notified
    refine Or.inl ⟨Or.inr ⟨_, _, rfl, Or.inl rfl⟩, rfl, fun number read => ?_⟩
    exact absurd (fun none_ => nomatch read.symm.trans none_) unread
  · obtain ⟨setting, unread⟩ := Classical.not_imp.mp serviceIdEarly
    obtain ⟨_, rfl, rfl⟩ := orderly.final vmId serviceId _ setting
    rw [setting] at inNotify
    cases inNotify
    cases notified
    refine Or.inr ⟨Or.inr ⟨_, rfl⟩, rfl, fun number read => ?_⟩
    exact absurd (fun none_ => nomatch read.symm.trans none_) unread

/-- The numbers of the script report what it did. -/
theorem reports_numbers {child : Child} (ended : script.creates = none → child = .ended) :
    Reports script child script.vmId script.serviceId := by
  cases creates : script.creates with
  | none =>
      have zero : script.vmId = 0 ∧ script.serviceId = 0 := by
        simp only [Script.vmId, Script.serviceId, creates, and_self]
      exact ⟨by simp [creates], fun _ => ⟨creates, ended creates⟩, Or.inl zero⟩
  | some handles =>
      obtain ⟨vm, service⟩ := handles
      have numbers : script.vmId = vm.val ∧ script.serviceId = service.val := by
        simp only [Script.vmId, Script.serviceId, creates, and_self]
      refine ⟨?_, fun zero => ?_, Or.inr ⟨vm, service, creates, numbers⟩⟩
      · intro other otherService same
        cases creates.symm.trans same
        exact numbers
      · exact absurd (numbers.1.symm.trans zero.1) vm.property

/-- Without a VM, the parent goes on only after the child has ended. -/
theorem Orderly.ended (orderly : Orderly script world) (left : world.parent ≠ .waiting)
    (without : script.creates = none) : world.child = .ended := by
  cases child : world.child with
  | main cleared =>
      cases cleared with
      | false => exact absurd (by rw [child]; rfl) (orderly.announced left)
      | true => exact absurd without (orderly.cleared child)
  | notify byThreadFunc vmId serviceId progress =>
      exact absurd without (orderly.byThreadFunc left child).2
  | ended => rfl

/-- A lost number is not the one that was created. -/
theorem not_reports_of_lost {child : Child} {vmId serviceId : UInt32}
    (returned : world.parent = .returned vmId serviceId) (creates : script.creates ≠ none)
    (lost : LostVmId world ∨ LostServiceId world) : ¬ Reports script child vmId serviceId := by
  intro reports
  obtain ⟨⟨vm, service⟩, handles⟩ := Option.ne_none_iff_exists'.mp creates
  obtain ⟨vmIs, serviceIs⟩ := reports.created vm service handles
  rcases lost with vmLost | serviceLost
  · have zero := vmLost.read vmId (by rw [returned]; rfl)
    exact vm.property (vmIs.symm.trans zero)
  · have zero := serviceLost.read serviceId (by rw [returned]; rfl)
    exact service.property (serviceIs.symm.trans zero)

/-- **What `startService` returns, exactly.** When it has returned, its result reports the
VM that was created if and only if `threadFunc`'s `notify` has set each field only after
the parent had read it. -/
theorem reports_iff_readFirst {events : List Event} {last : World} {vmId serviceId : UInt32}
    (ran : (machine script).run events = some last)
    (returned : last.parent = .returned vmId serviceId) :
    Reports script last.child vmId serviceId ↔
      (machine script).Guarded (ReadFirst script) (machine script).init events := by
  constructor
  · intro reports
    rw [Machine.guarded_iff]
    rintro first event second rfl world reached
    by_contra early
    have isNotify : event = .notify := by
      by_contra other
      exact early fun same => absurd same other
    subst isNotify
    rw [Machine.run_append, show (machine script).run first = some world from reached,
      Option.bind_some, Machine.runFrom_cons] at ran
    obtain ⟨after, stepped, rest⟩ := Option.bind_eq_some_iff.mp ran
    obtain ⟨creates, lost⟩ :=
      lost_of_not_readFirst (orderly_of_run reached) early stepped
    have stillLost := (machine script).runFrom_invariant
      (fun world => LostVmId world ∨ LostServiceId world)
      (fun _ _ _ lost stepped => lost.imp (·.step stepped) (·.step stepped))
      second after last lost rest
    exact not_reports_of_lost returned creates stillLost reports
  · intro guarded
    have kept := (machine script).run_invariant_of_guarded (ReadFirst script)
      (fun world => Orderly script world ∧ Truthful script world)
      ⟨orderly_initial script, truthful_initial script⟩
      (fun _ _ _ kept readFirst stepped =>
        ⟨kept.1.step stepped, kept.2.step kept.1 readFirst stepped⟩) events last guarded ran
    obtain rfl := kept.2.readVmId vmId (by rw [returned]; rfl)
    obtain rfl := kept.2.readServiceId serviceId (by rw [returned]; rfl)
    have left : last.parent ≠ .waiting := by
      rw [returned]
      exact nofun
    exact reports_numbers (kept.1.ended left)

/-- The parent reads `vmId_`, then `threadFunc` notifies, then the parent reads
`serviceId_`. -/
def readBetween : List Event :=
  [.newVm, .notify, .notify, .notify, .notify, .notify, .wake, .getVmId, .mainReturns, .notify,
    .notify, .notify, .notify, .notify, .getServiceId, .return_]

/-- In `readBetween` the result is a mixture of the two notifications. -/
theorem readBetween_mixes :
    ∃ last, (machine firstVm).run readBetween = some last ∧ last.parent = .returned 1 0 ∧
      ¬ Reports firstVm last.child 1 0 := by
  refine ⟨_, rfl, rfl, fun reports => ?_⟩
  obtain ⟨_, service⟩ := reports.created ⟨1, by decide⟩ ⟨1, by decide⟩ rfl
  exact absurd service (by decide)

/-- The parent has read both numbers before `threadFunc` notifies, and returns afterwards. -/
def readBefore : List Event :=
  [.newVm, .notify, .notify, .notify, .notify, .notify, .wake, .getVmId, .getServiceId,
    .mainReturns, .notify, .notify, .notify, .notify, .notify, .return_]

/-- The second notification has set both fields to zero by then. -/
theorem reports_iff_readFirst_readBefore :
    ∃ last, (machine firstVm).run readBefore = some last ∧ last.parent = .returned 1 1 ∧
      last.child = .ended ∧ last.waiter.vmId_ = 0 ∧ last.waiter.serviceId_ = 0 ∧
      Reports firstVm last.child 1 1 ∧
      (machine firstVm).Guarded (ReadFirst firstVm) (machine firstVm).init readBefore := by
  obtain ⟨last, ran, returned, ended, vmId, serviceId⟩ : ∃ last,
      (machine firstVm).run readBefore = some last ∧ last.parent = .returned 1 1 ∧
        last.child = .ended ∧ last.waiter.vmId_ = 0 ∧ last.waiter.serviceId_ = 0 :=
    ⟨_, rfl, rfl, rfl, rfl, rfl⟩
  have reports : Reports firstVm last.child 1 1 := by
    refine ⟨?_, fun zero => absurd zero.1 (by decide), Or.inr ⟨_, _, rfl, rfl, rfl⟩⟩
    intro vm service creates
    cases creates
    exact ⟨rfl, rfl⟩
  exact ⟨last, ran, returned, ended, vmId, serviceId, reports,
    (reports_iff_readFirst ran returned).mp reports⟩

end EasyLua.StartService
