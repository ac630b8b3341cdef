import EasyLua.Service.Dispatch

/-!
# Who serves the shared queue

A message in the queue of a service is fetched by a VM that calls `popMsg` before it
turns idle; nobody is signalled for it. Putting a message while some VM of the
service is busy therefore never strands it, and no other step can. The scan of
`pushMsg2FreeVm` asks each VM in its own critical section, so every VM it has passed
may turn idle before the message is put.
-/

namespace EasyLua.Dispatch

variable {Vm Service : Type} [DecidableEq Vm] [DecidableEq Service]

section

variable (topology : Topology Vm Service) (info : Service)

/-- Some VM of the service is not idle, so it still has to call `popMsg`. -/
def Busy (context : Vm → VmContext) : Prop :=
  ∃ vm ∈ topology.map_ info, (context vm).bIdle = false

/-- A waiting message of the service has a VM that still has to call `popMsg`. -/
def Awake (world : World Vm Service) : Prop :=
  (world.msgQueue info).queue_ ≠ [] → Busy topology info world.context

/-- A message is put into the shared queue only while some VM of the service is busy. -/
def PutSeesBusy (world : World Vm Service) (event : Event Vm Service) : Prop :=
  event = .put info → Busy topology info world.context

end

variable {topology : Topology Vm Service} {info : Service} {world next : World Vm Service}

omit [DecidableEq Service] in
/-- A context that is not turned idle leaves the service as busy as it was. -/
theorem Busy.update {context : Vm → VmContext} {vm : Vm} {new : VmContext}
    (busy : Busy topology info context) (kept : (context vm).bIdle = false → new.bIdle = false) :
    Busy topology info (Function.update context vm new) := by
  obtain ⟨other, member, awake⟩ := busy
  refine ⟨other, member, ?_⟩
  by_cases same : other = vm
  · subst other
    simpa only [Function.update_self] using kept awake
  · simpa only [Function.update_of_ne same] using awake

omit [DecidableEq Service] in
/-- A VM of the service that is not idle keeps it busy. -/
theorem Busy.of_update {context : Vm → VmContext} {vm : Vm} {new : VmContext}
    (member : vm ∈ topology.map_ info) (awake : new.bIdle = false) :
    Busy topology info (Function.update context vm new) :=
  ⟨vm, member, by simpa only [Function.update_self] using awake⟩

/-- Each step keeps waiting messages awake when `put` sees a busy VM. -/
theorem Awake.step (sound : Sound topology world) (awake : Awake topology info world)
    {event : Event Vm Service} (guard : PutSeesBusy topology info world event)
    (stepped : step topology world event = some next) : Awake topology info next := by
  cases event with
  | pushMsg vm msg =>
      cases stepped
      exact fun waiting => (awake waiting).update (fun _ => rfl)
  | lock other msg =>
      obtain ⟨_, rfl⟩ := step_lock stepped
      exact awake
  | isIdle other =>
      obtain ⟨_, _, _, _, rfl⟩ := step_isIdle stepped
      exact awake
  | pushIdle other =>
      obtain ⟨mail, _, vm, _, rfl⟩ := step_pushIdle stepped
      exact fun waiting => (awake waiting).update (fun _ => rfl)
  | put other =>
      obtain ⟨mail, _, rfl⟩ := step_put stepped
      intro waiting
      by_cases same : other = info
      · subst other
        exact guard rfl
      · simp only [Function.update_of_ne (Ne.symm same)] at waiting
        exact awake waiting
  | popMsg vm =>
      rcases sound.popMsg_cases stepped with
        ⟨mail, rest, _, rfl⟩ | ⟨mail, rest, _, shared, rfl⟩ | ⟨_, shared, rfl⟩
      · exact fun waiting => (awake waiting).update (fun _ => rfl)
      · intro waiting
        by_cases mine : topology.service vm = info
        · exact .of_update ((topology.mem_map_ info vm).mpr mine) rfl
        · simp only [Function.update_of_ne (Ne.symm mine)] at waiting
          exact (awake waiting).update (fun _ => rfl)
      · intro waiting
        by_cases mine : topology.service vm = info
        · subst mine
          exact absurd shared waiting
        · -- a VM of another service turns idle: the busy VM of this one is not it
          obtain ⟨other, member, busy⟩ := awake waiting
          have different : other ≠ vm := by
            rintro rfl
            exact mine ((topology.mem_map_ info other).mp member)
          exact ⟨other, member, by simpa only [Function.update_of_ne different] using busy⟩
  | runAsync vm =>
      cases stepped
      exact fun waiting => (awake waiting).update id

/-- In a run whose puts all see a busy VM, waiting messages are awake in every state. -/
theorem awake_of_run {events : List (Event Vm Service)} {world : World Vm Service}
    (nonNull : ∀ event ∈ events, event.NonNull)
    (guarded : (machine topology).Guarded (PutSeesBusy topology info) World.initial events)
    (ran : (machine topology).run events = some world) : Awake topology info world := by
  have both := ((machine topology).guarded_of_forall nonNull World.initial).and _ guarded
  have kept := (machine topology).run_invariant_of_guarded _
    (fun world => Sound topology world ∧ Awake topology info world)
    ⟨sound_initial, fun waiting => absurd rfl waiting⟩
    (fun _ _ _ kept guard stepped =>
      ⟨kept.1.step guard.1 stepped, kept.2.step kept.1 guard.2 stepped⟩) events world both ran
  exact kept.2

/-- A message put while all VMs of the service are idle waits without a busy VM. -/
theorem not_awake_of_put (idle : ¬ Busy topology info world.context)
    (stepped : step topology world (.put info) = some next) :
    next.scan info = none ∧ ¬ Awake topology info next := by
  obtain ⟨mail, _, rfl⟩ := step_put stepped
  refine ⟨Function.update_self .., fun awake => idle (awake ?_)⟩
  simp only [Function.update_self, BlockQueue.put_queue_]
  exact List.append_ne_nil_of_right_ne_nil _ (List.cons_ne_nil mail [])

/-- **Lost wake-ups, exactly.** Along a run, the shared queue of a service is served in
every state without a `pushMsg2FreeVm` call in progress if and only if each message
put into it was put while some VM of the service was not idle. -/
theorem awake_iff_putSeesBusy {events : List (Event Vm Service)} {last : World Vm Service}
    (nonNull : ∀ event ∈ events, event.NonNull)
    (ran : (machine topology).run events = some last) :
    (∀ first world, first <+: events → (machine topology).run first = some world →
      world.scan info = none → Awake topology info world) ↔
    (machine topology).Guarded (PutSeesBusy topology info) World.initial events := by
  constructor
  · intro served
    rw [Machine.guarded_iff]
    rintro first event second rfl world reached rfl
    by_contra idle
    have before : first ++ [.put info] <+: first ++ .put info :: second := ⟨second, by simp⟩
    obtain ⟨after, reachedAfter⟩ := (machine topology).run_of_initial before ran
    have stepped := reachedAfter
    rw [Machine.run_concat, show (machine topology).run first = some world from reached] at stepped
    obtain ⟨quiet, stranded⟩ := not_awake_of_put idle stepped
    exact stranded (served _ after before reachedAfter quiet)
  · intro guarded first world before reached _
    exact awake_of_run (fun event member => nonNull event (before.subset member))
      (guarded.initial _ before) reached

/-- The VM is found busy, then returns its last message and turns idle, and only then
the second message is put into the shared queue. -/
def lateIdle : List (Event Unit Unit) :=
  [.lock () { data := some [1] }, .isIdle (), .pushIdle (), .runAsync (),
    .lock () { data := some [2] }, .isIdle (), .popMsg (), .popMsg (), .put ()]

/-- After `lateIdle` a message waits while the only VM is idle and not signalled. -/
theorem lateIdle_strands :
    (∀ event ∈ lateIdle, event.NonNull) ∧
    ∃ world, (machine solo).run lateIdle = some world ∧ world.scan () = none ∧
      (world.msgQueue ()).queue_ ≠ [] ∧
      ∀ vm ∈ solo.map_ (), (world.context vm).bIdle = true ∧
        (world.context vm).asyncPending = false := by
  refine ⟨by simp [lateIdle, Event.NonNull], _, rfl, rfl, by decide, ?_⟩
  intro vm _
  exact ⟨rfl, rfl⟩

/-- The second message is put into the shared queue while the VM is busy with the first one. The
VM fetches both and turns idle. -/
def inTime : List (Event Unit Unit) :=
  [.lock () { data := some [1] }, .isIdle (), .pushIdle (), .runAsync (),
    .lock () { data := some [2] }, .isIdle (), .put (), .popMsg (), .popMsg (), .popMsg ()]

/-- In that run a message waits in the shared queue, and a busy VM is there for it. -/
theorem awake_iff_putSeesBusy_inTime :
    (∃ world, (machine solo).run (inTime.take 7) = some world ∧
      (world.msgQueue ()).queue_ ≠ []) ∧
    (machine solo).Guarded (PutSeesBusy solo ()) World.initial inTime ∧
    ∀ first world, first <+: inTime → (machine solo).run first = some world →
      world.scan () = none → Awake solo () world := by
  have waits : ∃ world, (machine solo).run (inTime.take 7) = some world ∧
      (world.msgQueue ()).queue_ ≠ [] := ⟨_, rfl, by decide⟩
  have busy {world : World Unit Unit} (awake : (world.context ()).bIdle = false) :
      PutSeesBusy solo () world (.put ()) := fun _ => ⟨(), List.mem_cons_self, awake⟩
  have guarded : (machine solo).Guarded (PutSeesBusy solo ()) World.initial inTime := by
    refine .cons nofun rfl (.cons nofun rfl (.cons nofun rfl (.cons nofun rfl ?_)))
    refine .cons nofun rfl (.cons nofun rfl (.cons (busy rfl) rfl ?_))
    exact .cons nofun rfl (.cons nofun rfl (.cons nofun rfl trivial))
  have nonNull : ∀ event ∈ inTime, event.NonNull := by simp [inTime, Event.NonNull]
  exact ⟨waits, guarded, (awake_iff_putSeesBusy nonNull rfl).mpr guarded⟩

end EasyLua.Dispatch
