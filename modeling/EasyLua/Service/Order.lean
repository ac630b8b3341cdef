import EasyLua.Service.Dispatch

/-!
# Order of the messages to a service with one VM

The VM takes from its own queue first and from the queue of the service afterwards.
The messages of the service stay in the order of their calls as long as the own queue
only receives one when the shared queue is empty. `pushMsg2FreeVm` does not look at
the shared queue before it hands a message to the idle VM it found.
-/

namespace EasyLua.Dispatch

variable {Vm Service : Type} [DecidableEq Vm] [DecidableEq Service]

/-- The messages sent to a service, in the order of their calls. -/
def sentTo (info : Service) (calls : List (Target Vm Service × Message)) : List Mail :=
  calls.zipIdx.filterMap fun (call, serial) =>
    if call.1 = .service info then some { serial, msg := call.2 } else none

/-- A message is handed to an idle VM only while no older one waits in the shared queue. -/
def HandsOverInOrder (info : Service) (world : World Vm Service) (event : Event Vm Service) :
    Prop :=
  event = .pushIdle info → (world.msgQueue info).queue_ = []

/-- The returned messages of the VM, its own queue, the shared queue and the message of
the call in progress are together the messages sent to the service, in order. -/
def InOrder (vm : Vm) (info : Service) (world : World Vm Service) : Prop :=
  world.returned vm ++ (world.context vm).msgQueue_.queue_ ++ (world.msgQueue info).queue_ ++
    (world.scan info).toList.map Scan.mail = sentTo info world.calls

theorem sentTo_append_service (info : Service) (calls : List (Target Vm Service × Message))
    (msg : Message) :
    sentTo info (calls ++ [(.service info, msg)]) =
      sentTo info calls ++ [{ serial := calls.length, msg }] := by
  unfold sentTo
  rw [List.zipIdx_append, List.filterMap_append]
  simp

theorem sentTo_append_other (info : Service) (calls : List (Target Vm Service × Message))
    (target : Target Vm Service) (msg : Message) (other : target ≠ .service info) :
    sentTo info (calls ++ [(target, msg)]) = sentTo info calls := by
  unfold sentTo
  rw [List.zipIdx_append, List.filterMap_append]
  simp [other]

variable {topology : Topology Vm Service} {vm : Vm} {info : Service}
  {world next : World Vm Service}

omit [DecidableEq Vm] [DecidableEq Service] in
/-- A service's only VM is its only VM. -/
theorem Topology.service_iff (only : topology.map_ info = [vm]) (other : Vm) :
    topology.service other = info ↔ other = vm := by
  rw [← topology.mem_map_, only, List.mem_singleton]

/-- Each step keeps the order when messages are handed over in order. -/
theorem InOrder.step (only : topology.map_ info = [vm]) (sound : Sound topology world)
    (order : InOrder vm info world) {event : Event Vm Service}
    (indirect : ∀ msg, event ≠ .pushMsg vm msg) (guard : HandsOverInOrder info world event)
    (stepped : step topology world event = some next) : InOrder vm info next := by
  unfold InOrder at order ⊢
  cases event with
  | pushMsg other msg =>
      cases stepped
      have different : vm ≠ other := fun same => indirect msg (same ▸ rfl)
      rw [sentTo_append_other _ _ _ _ (by simp)]
      simpa only [Function.update_of_ne different] using order
  | lock other msg =>
      obtain ⟨quiet, rfl⟩ := step_lock stepped
      by_cases same : info = other
      · subst same
        rw [quiet] at order
        rw [sentTo_append_service, ← order]
        simp
      · rw [sentTo_append_other _ _ _ _ (by simpa using Ne.symm same)]
        simpa only [Function.update_of_ne same] using order
  | isIdle other =>
      obtain ⟨mail, idle, rest, scanning, rfl⟩ := step_isIdle stepped
      by_cases same : info = other
      · subst same
        rw [scanning] at order
        simpa using order
      · simpa only [Function.update_of_ne same] using order
  | pushIdle other =>
      obtain ⟨mail, vms, idle, scanning, rfl⟩ := step_pushIdle stepped
      have mine : topology.service idle = other := (sound.scan other _ scanning).pIdle idle rfl
      by_cases same : info = other
      · subst same
        obtain rfl := (Topology.service_iff only idle).mp mine
        rw [scanning, guard rfl] at order
        rw [← order]
        simp [guard rfl]
      · have different : vm ≠ idle := by
          rintro rfl
          exact same (((Topology.service_iff only vm).mpr rfl).symm.trans mine)
        simpa only [Function.update_of_ne same, Function.update_of_ne different] using order
  | put other =>
      obtain ⟨mail, scanning, rfl⟩ := step_put stepped
      by_cases same : info = other
      · subst same
        rw [scanning] at order
        rw [← order]
        simp
      · simpa only [Function.update_of_ne same] using order
  | popMsg other =>
      rcases sound.popMsg_cases stepped with
        ⟨mail, rest, own, rfl⟩ | ⟨mail, rest, empty, shared, rfl⟩ | ⟨empty, shared, rfl⟩
      · by_cases same : vm = other
        · subst same
          rw [own] at order
          rw [← order]
          simp
        · simpa only [Function.update_of_ne same] using order
      · by_cases same : vm = other
        · subst same
          have mine : topology.service vm = info := (Topology.service_iff only vm).mpr rfl
          rw [mine] at shared
          rw [empty, shared] at order
          rw [← order]
          simp [mine, empty]
        · have apart : info ≠ topology.service other := fun mine =>
            same ((Topology.service_iff only other).mp mine.symm).symm
          simpa only [Function.update_of_ne same, Function.update_of_ne apart] using order
      · by_cases same : vm = other
        · subst same
          simpa only [Function.update_self] using order
        · simpa only [Function.update_of_ne same] using order
  | runAsync other =>
      cases stepped
      by_cases same : vm = other
      · subst same
        simpa only [Function.update_self] using order
      · simpa only [Function.update_of_ne same] using order

/-- **Order to a single VM.** When a service has one VM, nobody sends to this VM directly
and each message handed to the idle VM finds the shared queue empty, the VM returns the
messages of the service in the order of their calls. -/
theorem returned_prefix_of_handsOver {events : List (Event Vm Service)}
    {last : World Vm Service} (only : topology.map_ info = [vm])
    (nonNull : ∀ event ∈ events, event.NonNull)
    (indirect : ∀ event ∈ events, ∀ msg, event ≠ .pushMsg vm msg)
    (guarded : (machine topology).Guarded (HandsOverInOrder info) World.initial events)
    (ran : (machine topology).run events = some last) :
    last.returned vm <+: sentTo info last.calls := by
  have inputs := (machine topology).guarded_of_forall
    (fun event member => And.intro (nonNull event member) (indirect event member)) World.initial
  have kept := (machine topology).run_invariant_of_guarded _
    (fun world => Sound topology world ∧ InOrder vm info world)
    ⟨sound_initial, rfl⟩
    (fun _ _ _ kept guard stepped => ⟨kept.1.step guard.1.1 stepped,
      kept.2.step only kept.1 guard.1.2 guard.2 stepped⟩) events last (inputs.and _ guarded) ran
  have order := kept.2
  unfold InOrder at order
  rw [List.append_assoc, List.append_assoc] at order
  exact ⟨_, order⟩

/-- The second message is put into the shared queue after the VM has turned idle, so the
third one is handed to the VM. -/
def overtaking : List (Event Unit Unit) :=
  [.lock () { data := some [1] }, .isIdle (), .pushIdle (),
    .lock () { data := some [2] }, .isIdle (), .popMsg (), .popMsg (), .put (),
    .lock () { data := some [3] }, .isIdle (), .pushIdle (), .popMsg ()]

/-- After `overtaking` the VM has returned the third message and not the second. -/
theorem overtaking_reorders :
    (∀ event ∈ overtaking, event.NonNull ∧ ∀ msg, event ≠ .pushMsg () msg) ∧
    ∃ world, (machine solo).run overtaking = some world ∧
      ¬ (world.returned ()).map Mail.msg <+: (sentTo () world.calls).map Mail.msg := by
  refine ⟨by simp [overtaking, Event.NonNull], _, rfl, by decide⟩

/-- The first message is handed over with an empty shared queue and returned. -/
theorem returned_prefix_of_handsOver_solo :
    ∃ world, (machine solo).run (overtaking.take 6) = some world ∧
      world.returned () ≠ [] ∧ world.returned () <+: sentTo () world.calls := by
  have guarded : (machine solo).Guarded (HandsOverInOrder ()) World.initial
      (overtaking.take 6) :=
    .cons nofun rfl <| .cons nofun rfl <| .cons (fun _ => rfl) rfl <|
      .cons nofun rfl <| .cons nofun rfl <| .cons nofun rfl trivial
  exact ⟨_, rfl, by decide,
    returned_prefix_of_handsOver rfl (by simp [overtaking, Event.NonNull])
      (by simp [overtaking]) guarded rfl⟩

end EasyLua.Dispatch
