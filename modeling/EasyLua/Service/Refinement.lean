import EasyLua.Service.Atomic

/-!
# The dispatch machine as a view of the mutexes

The dispatch machine takes the calls of a `cVmContext` and of a queue as single steps, and a call
of `pushMsg2FreeVm` as a scan that goes on while other threads run. Threads whose operations take
effect as a whole follow it step by step: its contexts and queues are theirs, but for the numbers
that it gives to messages.
-/

namespace EasyLua

namespace Locking

namespace Refinement

open Locks (Program)

variable {Vm Service : Type} [DecidableEq Vm] [DecidableEq Service]

/-! ## Messages without numbers -/

/-- A message without the number of the call that pushed it. -/
def bare (mail : Mail) : Mail := { msg := mail.msg }

def bareQueue (queue : BlockQueue Mail) : BlockQueue Mail where
  queue_ := queue.queue_.map bare

def bareContext (context : VmContext) : VmContext :=
  { context with msgQueue_ := bareQueue context.msgQueue_ }

def bareScan (scan : Dispatch.Scan Vm) : Dispatch.Scan Vm := { scan with mail := bare scan.mail }

theorem bareQueue_put (queue : BlockQueue Mail) (mail : Mail) :
    bareQueue (queue.put mail) = (bareQueue queue).put (bare mail) := by
  ext1
  exact List.map_append

theorem bareContext_pushMsg (context : VmContext) (mail : Mail) :
    bareContext (context.pushMsg mail) = (bareContext context).pushMsg (bare mail) := by
  unfold bareContext VmContext.pushMsg
  dsimp only
  rw [bareQueue_put]

/-- `popMsg` does not look at the numbers. -/
theorem bareContext_popMsg (context : VmContext) (queue : BlockQueue Mail) :
    (bareContext context).popMsg (bareQueue queue) =
      (context.popMsg queue).map fun (mail, context, queue) =>
        (bare mail, bareContext context, bareQueue queue) := by
  cases own : context.msgQueue_.queue_ with
  | cons mail rest =>
      have ownBare : (bareContext context).msgQueue_.queue_ = bare mail :: rest.map bare := by
        unfold bareContext bareQueue
        rw [own, List.map_cons]
      rw [VmContext.popMsg_own _ _ mail rest own,
        VmContext.popMsg_own _ _ (bare mail) (rest.map bare) ownBare]
      rfl
  | nil =>
      have ownBare : (bareContext context).msgQueue_.queue_ = [] := by
        unfold bareContext bareQueue
        rw [own, List.map_nil]
      cases shared : queue.queue_ with
      | nil =>
          have sharedBare : (bareQueue queue).queue_ = [] := by
            unfold bareQueue
            rw [shared, List.map_nil]
          rw [VmContext.popMsg_empty _ _ own shared, VmContext.popMsg_empty _ _ ownBare sharedBare]
          rfl
      | cons mail rest =>
          have sharedBare : (bareQueue queue).queue_ = bare mail :: rest.map bare := by
            unfold bareQueue
            rw [shared, List.map_cons]
          by_cases null : mail.msg.data = none
          · rw [VmContext.popMsg_null _ _ mail rest own shared null,
              VmContext.popMsg_null _ _ (bare mail) (rest.map bare) ownBare sharedBare null]
            rfl
          · rw [VmContext.popMsg_service _ _ mail rest own shared null,
              VmContext.popMsg_service _ _ (bare mail) (rest.map bare) ownBare sharedBare null]
            rfl

/-! ## What a thread does, in the steps of the dispatch machine -/

variable (Vm Service) in
/-- Where a thread is: outside `pushMsg2FreeVm`, in its scan, or past it with the mutex of the
service still held. -/
inductive Phase
  | outside
  | scanning (info : Service) (scan : Dispatch.Scan Vm)
  | leaving (info : Service)

variable (population : Population Vm Service)

/-- What is left of a call, step by step. -/
inductive Follows : Phase Vm Service → Action Vm Service Result → Prop
  | done (result : Result) : Follows .outside (.done result)
  | newSession (vm : Vm) (rest : State Vm Service → Action Vm Service Result)
      (after : ∀ state, Follows .outside (rest state)) :
      Follows .outside (.access (fun state =>
        state.setSession vm (Session.newSession (state.sessionId vm)).2) rest)
  | pushMsg (vm : Vm) (msg : Message) (rest : State Vm Service → Action Vm Service Result)
      (after : ∀ state, Follows .outside (rest state)) :
      Follows .outside (.access (fun state =>
        state.modifyContext vm fun context => context.pushMsg { msg := msg }) rest)
  | popMsg (vm : Vm) (rest : State Vm Service → Action Vm Service Result)
      (after : ∀ state, Follows .outside (rest state)) :
      Follows .outside (.access (fun state => (Atomic.popState population vm state).2) rest)
  | runAsync (vm : Vm) (rest : State Vm Service → Action Vm Service Result)
      (after : ∀ state, Follows .outside (rest state)) :
      Follows .outside (.access (fun state => state.setAsync vm false) rest)
  | lock (info : Service) (msg : Message) (rest : Action Vm Service Result)
      (after : Follows (.scanning info ⟨{ msg := msg }, population.map_ info, none⟩) rest) :
      Follows .outside (.acquire (.service info) rest)
  | isIdle (info : Service) (mail : Mail) (vm : Vm) (vms : List Vm)
      (rest : State Vm Service → Action Vm Service Result)
      (after : ∀ state, Follows
        (.scanning info ⟨mail, vms, if (state.context vm).isIdle then some vm else none⟩)
        (rest state)) :
      Follows (.scanning info ⟨mail, vm :: vms, none⟩) (.access id rest)
  | pushIdle (info : Service) (mail : Mail) (vms : List Vm) (vm : Vm)
      (rest : State Vm Service → Action Vm Service Result)
      (after : ∀ state, Follows (.leaving info) (rest state)) :
      Follows (.scanning info ⟨mail, vms, some vm⟩) (.access (fun state =>
        state.modifyContext vm fun context => context.pushMsg mail) rest)
  | put (info : Service) (mail : Mail) (rest : State Vm Service → Action Vm Service Result)
      (after : ∀ state, Follows (.leaving info) (rest state)) :
      Follows (.scanning info ⟨mail, [], none⟩) (.access (fun state =>
        state.setQueue ((state.msgQueue info).put mail) (.shared info)) rest)
  | release (info : Service) (rest : Action Vm Service Result) (after : Follows .outside rest) :
      Follows (.leaving info) (.release (.service info) rest)

theorem follows_pushMsg2FreeVm (info : Service) (msg : Message) (rest : Action Vm Service Result)
    (after : Follows population .outside rest) :
    Follows population .outside
      (Atomic.pushMsg2FreeVm population info { msg := msg } >>= fun _ => rest) := by
  refine Follows.lock info msg _ ?_
  generalize population.map_ info = vms
  induction vms with
  | nil => exact Follows.put info _ _ fun _ => .release info _ after
  | cons vm vms ih =>
      refine Follows.isIdle info _ vm vms _ fun state => ?_
      dsimp only
      cases idle : (state.context vm).isIdle with
      | false => exact ih
      | true => exact Follows.pushIdle info _ vms vm _ fun _ => .release info _ after

theorem follows_report (self : Vm) (msg : Message) (vms : List Vm)
    (rest : Action Vm Service Result) (after : Follows population .outside rest) :
    Follows population .outside
      (Atomic.report population self { msg := msg } vms >>= fun _ => rest) := by
  induction vms with
  | nil => exact after
  | cons obj vms ih =>
      unfold Atomic.report
      split
      · exact ih
      · exact Follows.pushMsg obj msg _ fun _ => ih

theorem follows_body (call : Call Vm) :
    Follows population .outside (Atomic.body population call) := by
  cases call with
  | sendByVmId self targetVmId charMsg size =>
      refine Follows.newSession self _ fun state => ?_
      unfold Atomic.fetchContext
      cases population.contextMgr.fetch (fun _ => true) targetVmId.toInt32 with
      | none => exact Follows.done _
      | some target => exact Follows.pushMsg target _ _ fun _ => .done _
  | sendByServiceName self serviceName charMsg size =>
      refine Follows.newSession self _ fun state => ?_
      unfold Atomic.fetchService
      cases population.serviceMgr.fetch (fun _ => true) serviceName with
      | none => exact Follows.done _
      | some service =>
          let msg := message population self (Session.newSession (state.sessionId self)).1 charMsg
            (size.toUInt64 ||| Address.MSG_TYPE_LUA <<< Address.MESSAGE_TYPE_SHIFT)
          have assoc := Program.bind_assoc (Atomic.pushMsg2FreeVm population service msg)
            (fun _ => .done true) (fun found => .done (Result.sent found))
          exact assoc ▸ follows_pushMsg2FreeVm population service msg.msg _ (.done _)
  | iAmReady self pBuff len => exact follows_report population self _ _ (.done .done) (.done _)
  | getInternalMsgNonBlock self => exact Follows.popMsg self _ fun _ => .done _
  | runAsync vm => exact Follows.runAsync vm _ fun _ => .done _

/-! ## The dispatch machine follows -/

/-- The thread holds the mutex of the service. -/
def Phase.Inside (info : Service) : Phase Vm Service → Prop
  | .outside => False
  | .scanning other _ => other = info
  | .leaving other => other = info

variable {Thread : Type} [DecidableEq Thread]

/-- The dispatch machine is where the threads are. -/
structure Views (phase : Thread → Phase Vm Service)
    (whole : Locks.World (Mutex Vm Service) (State Vm Service) Thread Result)
    (world : Dispatch.World Vm Service) : Prop where
  context : ∀ vm, bareContext (world.context vm) = whole.state.context vm
  queue : ∀ info, bareQueue (world.msgQueue info) = whole.state.msgQueue info
  follows : ∀ thread, Follows population (phase thread) (whole.program thread)
  holds : ∀ thread info, (phase thread).Inside info → whole.holder (.service info) = some thread
  scan : ∀ info scan, world.scan info = some scan →
    ∃ thread, phase thread = .scanning info (bareScan scan)
  scanning : ∀ thread info scan, phase thread = .scanning info scan →
    ∃ original, world.scan info = some original ∧ bareScan original = scan

variable {population} {phase : Thread → Phase Vm Service}
  {whole next : Locks.World (Mutex Vm Service) (State Vm Service) Thread Result}
  {world after : Dispatch.World Vm Service}

omit [DecidableEq Thread] in
/-- Only one thread is inside a service. -/
theorem Views.alone (views : Views population phase whole world) {thread other : Thread}
    {info : Service} (inside : (phase thread).Inside info) (different : other ≠ thread) :
    ¬ (phase other).Inside info := by
  intro also
  have same := (views.holds other info also).symm.trans (views.holds thread info inside)
  exact different (Option.some.inj same)

/-- One thread goes on outside the services. -/
theorem Views.outside (views : Views population phase whole world) {thread : Thread}
    (before : phase thread = .outside) {rest : Action Vm Service Result} {state : State Vm Service}
    (follows : Follows population .outside rest) (scan : after.scan = world.scan)
    (context : ∀ vm, bareContext (after.context vm) = state.context vm)
    (queue : ∀ info, bareQueue (after.msgQueue info) = state.msgQueue info) :
    Views population phase
      { whole with state := state, program := Function.update whole.program thread rest }
      after where
  context := context
  queue := queue
  follows := by
    intro other
    dsimp only
    by_cases same : other = thread
    · subst same
      rw [Function.update_self, before]
      exact follows
    · rw [Function.update_of_ne same]
      exact views.follows other
  holds := views.holds
  scan := by
    rw [scan]
    exact views.scan
  scanning := by
    rw [scan]
    exact views.scanning

/-- One thread goes on inside a service, or enters or leaves it. -/
theorem Views.inside (views : Views population phase whole world) {thread : Thread}
    {info : Service} {new : Phase Vm Service} {rest : Action Vm Service Result}
    {state : State Vm Service} {holder : Mutex Vm Service → Option Thread}
    {scan : Option (Dispatch.Scan Vm)}
    (alone : ∀ other, other ≠ thread → ¬ (phase other).Inside info)
    (before : ∀ another, (phase thread).Inside another → another = info)
    (follows : Follows population new rest)
    (scans : after.scan = Function.update world.scan info scan)
    (context : ∀ vm, bareContext (after.context vm) = state.context vm)
    (queue : ∀ info, bareQueue (after.msgQueue info) = state.msgQueue info)
    (some_ : ∀ present, scan = some present → new = .scanning info (bareScan present))
    (found : ∀ another present, new = .scanning another present →
      another = info ∧ ∃ original, scan = some original ∧ bareScan original = present)
    (holds : ∀ another, new.Inside another → holder (.service another) = some thread)
    (kept : ∀ another, another ≠ info →
      holder (.service another) = whole.holder (.service another)) :
    Views population (Function.update phase thread new)
      { state := state, holder := holder, program := Function.update whole.program thread rest }
      after where
  context := context
  queue := queue
  follows := by
    intro other
    dsimp only
    by_cases same : other = thread
    · subst same
      rw [Function.update_self, Function.update_self]
      exact follows
    · rw [Function.update_of_ne same, Function.update_of_ne same]
      exact views.follows other
  holds := by
    intro other another inside
    by_cases same : other = thread
    · subst same
      rw [Function.update_self] at inside
      exact holds another inside
    · rw [Function.update_of_ne same] at inside
      have different : another ≠ info := by
        rintro rfl
        exact alone other same inside
      dsimp only
      rw [kept another different]
      exact views.holds other another inside
  scan := by
    intro another present there
    rw [scans, Function.update_apply] at there
    split at there
    · subst another
      refine ⟨thread, ?_⟩
      rw [Function.update_self]
      exact some_ present there
    · rename_i different
      obtain ⟨other, scanning⟩ := views.scan another present there
      have notThread : other ≠ thread := by
        rintro rfl
        rw [scanning] at before
        exact different (before another rfl)
      refine ⟨other, ?_⟩
      rw [Function.update_of_ne notThread]
      exact scanning
  scanning := by
    intro other another present here
    by_cases same : other = thread
    · subst same
      rw [Function.update_self] at here
      obtain ⟨rfl, original, scanned, same⟩ := found another present here
      refine ⟨original, ?_, same⟩
      rw [scans, Function.update_self]
      exact scanned
    · rw [Function.update_of_ne same] at here
      have different : another ≠ info := by
        rintro rfl
        exact alone other same (by rw [here]; rfl)
      obtain ⟨original, scanned, same⟩ := views.scanning other another present here
      refine ⟨original, ?_, same⟩
      rw [scans, Function.update_of_ne different]
      exact scanned

/-- `popMsg` always returns. -/
theorem exists_popMsg (context : VmContext) (queue : BlockQueue Mail) :
    ∃ mail rest queueRest, context.popMsg queue = some (mail, rest, queueRest) := by
  unfold VmContext.popMsg
  split
  · rename_i filled
    obtain ⟨front, rest, own⟩ :=
      List.exists_cons_of_ne_nil (List.ne_nil_of_length_pos (Nat.pos_of_ne_zero filled))
    rw [BlockQueue.take_of_cons own]
    exact ⟨_, _, _, rfl⟩
  · dsimp only
    split
    · exact ⟨_, _, _, rfl⟩
    · exact ⟨_, _, _, rfl⟩

omit [DecidableEq Thread] in
theorem Views.context_update (views : Views population phase whole world) {vm : Vm}
    {context changed : VmContext} (same : bareContext context = changed) :
    ∀ other, bareContext (Function.update world.context vm context other) =
      Function.update whole.state.context vm changed other := by
  intro other
  rw [Function.update_apply, Function.update_apply]
  split
  · exact same
  · exact views.context other

omit [DecidableEq Thread] in
theorem Views.queue_update (views : Views population phase whole world) {info : Service}
    {queue changed : BlockQueue Mail} (same : bareQueue queue = changed) :
    ∀ other, bareQueue (Function.update world.msgQueue info queue other) =
      Function.update whole.state.msgQueue info changed other := by
  intro other
  rw [Function.update_apply, Function.update_apply]
  split
  · exact same
  · exact views.queue other

/-- What the dispatch machine does when a thread goes on. -/
def Moves (population : Population Vm Service) (next : Locks.World (Mutex Vm Service)
    (State Vm Service) Thread Result) (world : Dispatch.World Vm Service) : Prop :=
  ∃ moves after phase, (Dispatch.machine population.toTopology).runFrom world moves = some after ∧
    Views population phase next after

omit [DecidableEq Thread] in
theorem Moves.of_step (move : Dispatch.Event Vm Service)
    (stepped : Dispatch.step population.toTopology world move = some after)
    (views : Views population phase next after) : Moves population next world :=
  ⟨[move], after, phase, congrArg (Option.bind · some) stepped, views⟩

theorem Views.pushMsg (views : Views population phase whole world) {thread : Thread}
    (before : phase thread = .outside) (vm : Vm) (msg : Message)
    {rest : Action Vm Service Result} (follows : Follows population .outside rest) :
    Moves population { whole with
      state := whole.state.modifyContext vm fun context => context.pushMsg { msg := msg }
      program := Function.update whole.program thread rest } world := by
  refine Moves.of_step (.pushMsg vm msg) rfl
    (views.outside before follows rfl ?_ views.queue)
  refine views.context_update ?_
  rw [bareContext_pushMsg, views.context]
  rfl

theorem Views.popMsg (views : Views population phase whole world) {thread : Thread}
    (before : phase thread = .outside) (vm : Vm)
    {rest : Action Vm Service Result} (follows : Follows population .outside rest) :
    Moves population { whole with
      state := (Atomic.popState population vm whole.state).2
      program := Function.update whole.program thread rest } world := by
  obtain ⟨after, stepped⟩ :
      ∃ after, Dispatch.step population.toTopology world (.popMsg vm) = some after := by
    obtain ⟨_, _, _, popped⟩ :=
      exists_popMsg (world.context vm) (world.msgQueue (population.service vm))
    exact Option.isSome_iff_exists.mp (by simp only [Dispatch.step, popped, Option.isSome_some])
  obtain ⟨mail, context, queue, popped, rfl⟩ := Dispatch.step_popMsg stepped
  have same := bareContext_popMsg (world.context vm) (world.msgQueue (population.service vm))
  rw [popped, views.context, views.queue] at same
  have effect : (Atomic.popState population vm whole.state).2 =
      (whole.state.modifyContext vm fun _ => bareContext context).setQueue (bareQueue queue)
        (.shared (population.service vm)) := by
    unfold Atomic.popState
    rw [same]
    rfl
  rw [effect]
  exact Moves.of_step _ stepped (views.outside before follows rfl (views.context_update rfl)
    (views.queue_update rfl))

/-- A thread acquires the mutex of a service and begins its scan. -/
theorem Views.lock (views : Views population phase whole world) {thread : Thread}
    (before : phase thread = .outside) {info : Service}
    (free : whole.holder (.service info) = none) (msg : Message) {rest : Action Vm Service Result}
    (follows : Follows population
      (.scanning info ⟨{ msg := msg }, population.map_ info, none⟩) rest) :
    Moves population { whole with
      holder := Function.update whole.holder (.service info) (some thread)
      program := Function.update whole.program thread rest } world := by
  have nobody : ∀ other, ¬ (phase other).Inside info := by
    intro other inside
    exact absurd (free.symm.trans (views.holds other info inside)) nofun
  have idle : world.scan info = none := by
    cases scanned : world.scan info with
    | none => rfl
    | some scan =>
        obtain ⟨other, scanning⟩ := views.scan info scan scanned
        exact absurd (by rw [scanning]; rfl) (nobody other)
  have stepped : Dispatch.step population.toTopology world (.lock info msg) = some { world with
      scan := Function.update world.scan info (some
        { mail := { serial := world.calls.length, msg := msg }
          vms := population.map_ info
          pIdle := none })
      calls := world.calls ++ [(.service info, msg)] } := by
    simp only [Dispatch.step, idle]
  refine Moves.of_step _ stepped (views.inside (fun other _ => nobody other) ?_ follows rfl
    views.context views.queue ?_ ?_ ?_ ?_)
  · intro another inside
    rw [before] at inside
    exact absurd inside id
  · rintro present ⟨⟩
    rfl
  · rintro another present ⟨⟩
    exact ⟨rfl, _, rfl, rfl⟩
  · rintro another rfl
    exact Function.update_self ..
  · intro another different
    exact Function.update_of_ne (fun same => different (Mutex.service.inj same)) ..

/-- A thread in its scan goes on to the next VM, or leaves it with a message pushed. -/
theorem Views.scanned (views : Views population phase whole world) {thread : Thread}
    {info : Service} {scan : Dispatch.Scan Vm} (before : phase thread = .scanning info scan)
    {new : Phase Vm Service} {rest : Action Vm Service Result} {state : State Vm Service}
    {present : Option (Dispatch.Scan Vm)}
    (follows : Follows population new rest)
    (next : new = match present with
      | some present => .scanning info (bareScan present)
      | none => .leaving info)
    (scans : after.scan = Function.update world.scan info present)
    (context : ∀ vm, bareContext (after.context vm) = state.context vm)
    (queue : ∀ info, bareQueue (after.msgQueue info) = state.msgQueue info) :
    Views population (Function.update phase thread new) { whole with
      state := state
      program := Function.update whole.program thread rest } after := by
  have inside : (phase thread).Inside info := by
    rw [before]
    rfl
  refine views.inside (fun other => views.alone inside) ?_ follows scans context queue ?_ ?_ ?_
    fun _ _ => rfl
  · intro another also
    rw [before] at also
    exact also.symm
  · rintro present rfl
    exact next
  · rintro another scan rfl
    cases present with
    | none => cases next
    | some present =>
        cases next
        exact ⟨rfl, present, rfl, rfl⟩
  · intro another also
    have same : info = another := by
      rw [next] at also
      cases present with
      | none => exact also
      | some present => exact also
    subst same
    exact views.holds thread info inside

theorem Views.isIdle (views : Views population phase whole world) {thread : Thread}
    {info : Service} {mail : Mail} {vm : Vm} {vms : List Vm}
    (before : phase thread = .scanning info ⟨mail, vm :: vms, none⟩)
    {rest : Action Vm Service Result}
    (follows : Follows population (.scanning info
      ⟨mail, vms, if (whole.state.context vm).isIdle then some vm else none⟩) rest) :
    Moves population { whole with program := Function.update whole.program thread rest } world := by
  obtain ⟨⟨original, vms, pIdle⟩, scanned, same⟩ := views.scanning thread info _ before
  cases same
  have idle : (world.context vm).isIdle = (whole.state.context vm).isIdle := by
    rw [← views.context]
    rfl
  obtain ⟨after, stepped⟩ :
      ∃ after, Dispatch.step population.toTopology world (.isIdle info) = some after := by
    refine Option.isSome_iff_exists.mp ?_
    simp only [Dispatch.step, scanned]
    split <;> rfl
  obtain ⟨mail, another, others, scannedAgain, rfl⟩ := Dispatch.step_isIdle stepped
  rw [scanned] at scannedAgain
  cases scannedAgain
  refine Moves.of_step _ stepped (views.scanned before follows ?_ rfl views.context views.queue)
  rw [idle]
  rfl

theorem Views.pushIdle (views : Views population phase whole world) {thread : Thread}
    {info : Service} {mail : Mail} {vms : List Vm} {vm : Vm}
    (before : phase thread = .scanning info ⟨mail, vms, some vm⟩) {rest : Action Vm Service Result}
    (follows : Follows population (.leaving info) rest) :
    Moves population { whole with
      state := whole.state.modifyContext vm fun context => context.pushMsg mail
      program := Function.update whole.program thread rest } world := by
  obtain ⟨⟨original, others, pIdle⟩, scanned, same⟩ := views.scanning thread info _ before
  cases same
  have stepped : Dispatch.step population.toTopology world (.pushIdle info) = some { world with
      context := Function.update world.context vm ((world.context vm).pushMsg original)
      scan := Function.update world.scan info none
      finished := world.finished ++ [original] } := by
    simp only [Dispatch.step, scanned]
  refine Moves.of_step _ stepped (views.scanned before follows rfl rfl ?_ views.queue)
  refine views.context_update ?_
  rw [bareContext_pushMsg, views.context]

theorem Views.put (views : Views population phase whole world) {thread : Thread}
    {info : Service} {mail : Mail} (before : phase thread = .scanning info ⟨mail, [], none⟩)
    {rest : Action Vm Service Result} (follows : Follows population (.leaving info) rest) :
    Moves population { whole with
      state := whole.state.setQueue ((whole.state.msgQueue info).put mail) (.shared info)
      program := Function.update whole.program thread rest } world := by
  obtain ⟨⟨original, others, pIdle⟩, scanned, same⟩ := views.scanning thread info _ before
  cases same
  have stepped : Dispatch.step population.toTopology world (.put info) = some { world with
      msgQueue := Function.update world.msgQueue info ((world.msgQueue info).put original)
      scan := Function.update world.scan info none
      finished := world.finished ++ [original] } := by
    simp only [Dispatch.step, scanned]
  refine Moves.of_step _ stepped (views.scanned before follows rfl rfl views.context ?_)
  refine views.queue_update ?_
  rw [bareQueue_put, views.queue]

/-- A thread releases the mutex of a service; the dispatch machine has ended the call already. -/
theorem Views.release (views : Views population phase whole world) {thread : Thread}
    {info : Service} (before : phase thread = .leaving info) {rest : Action Vm Service Result}
    (follows : Follows population .outside rest) :
    Moves population { whole with
      holder := Function.update whole.holder (.service info) none
      program := Function.update whole.program thread rest } world := by
  have inside : (phase thread).Inside info := by
    rw [before]
    rfl
  have idle : world.scan info = none := by
    cases scanned : world.scan info with
    | none => rfl
    | some scan =>
        obtain ⟨other, scanning⟩ := views.scan info scan scanned
        have different : other ≠ thread := by
          rintro rfl
          rw [before] at scanning
          cases scanning
        exact absurd (by rw [scanning]; rfl) (views.alone inside different)
  have scans : world.scan = Function.update world.scan info none := by
    rw [← idle, Function.update_eq_self]
  refine ⟨[], world, _, rfl, views.inside (fun other => views.alone inside) ?_ follows scans
    views.context views.queue nofun nofun nofun ?_⟩
  · intro another also
    rw [before] at also
    exact also.symm
  · intro another different
    exact Function.update_of_ne (fun same => different (Mutex.service.inj same)) ..

theorem Views.proceed (views : Views population phase whole world) {thread : Thread}
    (stepped : Locks.step (Atomic.body population) whole (.proceed thread) = some next) :
    Moves population next world := by
  have follows := views.follows thread
  generalize running : whole.program thread = program at follows
  generalize before : phase thread = here at follows
  cases follows with
  | done result =>
      simp only [Locks.step, running] at stepped
      cases stepped
  | newSession vm rest after =>
      simp only [Locks.step, running] at stepped
      cases stepped
      exact ⟨[], world, phase, rfl,
        views.outside before (after whole.state) rfl views.context views.queue⟩
  | pushMsg vm msg rest after =>
      simp only [Locks.step, running] at stepped
      cases stepped
      exact views.pushMsg before vm msg (after whole.state)
  | popMsg vm rest after =>
      simp only [Locks.step, running] at stepped
      cases stepped
      exact views.popMsg before vm (after whole.state)
  | runAsync vm rest after =>
      simp only [Locks.step, running] at stepped
      cases stepped
      refine Moves.of_step (.runAsync vm) rfl
        (views.outside before (after whole.state) rfl ?_ views.queue)
      refine views.context_update ?_
      rw [← views.context]
      rfl
  | lock info msg rest after =>
      simp only [Locks.step, running] at stepped
      split at stepped
      · cases stepped
        exact views.lock before ‹_› msg after
      · cases stepped
  | isIdle info mail vm vms rest after =>
      simp only [Locks.step, running] at stepped
      cases stepped
      exact views.isIdle before (after whole.state)
  | pushIdle info mail vms vm rest after =>
      simp only [Locks.step, running] at stepped
      cases stepped
      exact views.pushIdle before (after whole.state)
  | put info mail rest after =>
      simp only [Locks.step, running] at stepped
      cases stepped
      exact views.put before (after whole.state)
  | release info rest after =>
      simp only [Locks.step, running] at stepped
      split at stepped
      · cases stepped
        exact views.release before after
      · cases stepped

theorem Views.start (views : Views population phase whole world) {thread : Thread}
    {call : Call Vm}
    (stepped : Locks.step (Atomic.body population) whole (.start thread call) = some next) :
    Moves population next world := by
  have follows := views.follows thread
  simp only [Locks.step] at stepped
  split at stepped
  · rename_i result idle
    cases stepped
    rw [idle] at follows
    generalize before : phase thread = here at follows
    cases follows
    exact ⟨[], world, phase, rfl,
      views.outside before (follows_body population call) rfl views.context views.queue⟩
  · cases stepped

/-- New contexts and queues; the constructor leaves `sessionId` as it is. -/
def initial (sessionId : Vm → Int32) : State Vm Service where
  context := fun _ => {}
  sessionId := sessionId
  msgQueue := fun _ => {}

variable (population)

theorem simulates (sessionId : Vm → Int32) :
    (Atomic.machine population Thread (initial sessionId)).Simulates
      (Dispatch.machine population.toTopology)
      (fun whole world => ∃ phase, Views population phase whole world) (fun _ _ => True) where
  init := by
    refine ⟨fun _ => .outside, ⟨fun _ => rfl, fun _ => rfl, fun _ => .done _, nofun, nofun, nofun⟩⟩
  step := by
    rintro whole next world event ⟨phase, views⟩ stepped
    cases event with
    | start thread call =>
        obtain ⟨moves, after, phase, ran, views⟩ := views.start stepped
        exact ⟨moves, after, trivial, ran, phase, views⟩
    | proceed thread =>
        obtain ⟨moves, after, phase, ran, views⟩ := views.proceed stepped
        exact ⟨moves, after, trivial, ran, phase, views⟩

/-- **The dispatch machine is what the mutexes make of the code.** For every run of threads with
all the mutexes there is a run of the dispatch machine that ends, unless someone still holds a
mutex, with the same contexts and queues, but for the numbers of the messages. -/
theorem dispatch_of_run (sessionId : Vm → Int32) (events : List (Locks.Event Thread (Call Vm)))
    (world : Locks.World (Mutex Vm Service) (State Vm Service) Thread Result)
    (ran : (machine population Thread (initial sessionId)).run events = some world) :
    ∃ moves view, (Dispatch.machine population.toTopology).run moves = some view ∧
      ((∀ mutex, world.holder mutex = none) →
        (∀ vm, bareContext (view.context vm) = world.state.context vm) ∧
          ∀ info, bareQueue (view.msgQueue info) = world.state.msgQueue info) := by
  have atomic : (machine population Thread (initial sessionId)).Simulates
      (Atomic.machine population Thread (initial sessionId)) _ _ :=
    Locks.simulates (fun call => Atomic.implements_body population call) .done _
  obtain ⟨rounds, same, _, every⟩ := atomic.run events world ran
  obtain ⟨fine, whole_, ranFine, ranWhole, held, matches_⟩ := every rounds (List.prefix_refl _)
  rw [same, ran] at ranFine
  cases ranFine
  obtain ⟨steps, sameSteps, _, reached⟩ :=
    (simulates population sessionId).run _ whole_ ranWhole
  obtain ⟨again, view, ranAgain, ranView, phase, views⟩ := reached steps (List.prefix_refl _)
  rw [sameSteps, ranWhole] at ranAgain
  cases ranAgain
  refine ⟨_, view, ranView, fun free => ?_⟩
  rw [matches_.state_eq whole free]
  exact ⟨views.context, views.queue⟩

/-- A VM sends a message to another one and comes to the end of its call. -/
def oneSend : List (Locks.Event Bool (Call Bool)) :=
  .start false (.sendByVmId false 2 (some [7]) 1) :: List.replicate 14 (.proceed false)

theorem dispatch_of_run_oneSend :
    ∃ world moves view, (machine twoVms Bool (initial fun _ => 0)).run oneSend = some world ∧
      (Dispatch.machine twoVms.toTopology).run moves = some view ∧
        ∀ vm, bareContext (view.context vm) = world.state.context vm := by
  obtain ⟨moves, view, ran, same⟩ := dispatch_of_run twoVms (fun _ => 0) oneSend _ rfl
  refine ⟨_, moves, view, rfl, ran, (same fun mutex => ?_).1⟩
  rcases mutex with _ | _ | info | vm | (vm | info) | vm <;> first | rfl | (cases vm <;> rfl)

end Refinement

end Locking

end EasyLua
