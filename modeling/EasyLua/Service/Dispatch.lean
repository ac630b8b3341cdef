import EasyLua.Foundation.Machine
import EasyLua.Service.Context
import Mathlib.Logic.Function.Basic

/-!
# Message dispatch between services and VMs

The senders and the VM threads as one machine. `isIdle`, `pushMsg` and `popMsg`
each run under `cVmContext::mutex_` and `put` under the queue's own mutex, so each
is one step. `cServiceInfo::pushMsg2FreeVm` holds only `cServiceInfo::mutex_`: it is
a call in progress that takes its steps one by one, and other threads run between
them. The VMs and their registration are fixed during a run.
-/

namespace EasyLua

namespace Dispatch

variable (Vm Service : Type)

/-- The VMs of each service: `cVmContext::service` of a VM and the entries of the
registry base `map_` of a service, in iteration order. -/
structure Topology where
  service : Vm → Service
  map_ : Service → List Vm
  mem_map_ : ∀ info vm, vm ∈ map_ info ↔ service vm = info

/-- Whom a call of a sender addresses. -/
inductive Target
  | vm (vm : Vm)
  | service (info : Service)
  deriving DecidableEq

/-- The local state of a `pushMsg2FreeVm` call that holds `cServiceInfo::mutex_`: the
message, the map entries not visited yet and the idle VM found so far. -/
structure Scan where
  mail : Mail
  vms : List Vm
  pIdle : Option Vm

/-- The contexts, the shared queues and the calls in progress. The last three fields
record the history: the calls begun, the messages whose call has finished and the
messages each VM's `popMsg` has returned. -/
structure World where
  context : Vm → VmContext
  msgQueue : Service → BlockQueue Mail
  scan : Service → Option (Scan Vm)
  calls : List (Target Vm Service × Message)
  finished : List Mail
  returned : Vm → List Mail

/-- One step of a sender or of a VM. -/
inductive Event
  /-- A whole call `cVmContext::pushMsg`. -/
  | pushMsg (vm : Vm) (msg : Message)
  /-- `pushMsg2FreeVm` is called and gets `cServiceInfo::mutex_`. -/
  | lock (info : Service) (msg : Message)
  /-- The scan asks the VM of its next map entry whether it is idle. -/
  | isIdle (info : Service)
  /-- The scan found an idle VM: `pIdle->pushMsg(msg)`, and the call returns. -/
  | pushIdle (info : Service)
  /-- The scan found no idle VM: `msgQueue.put(msg)`, and the call returns. -/
  | put (info : Service)
  /-- A whole call `cVmContext::popMsg` by the thread of the VM. -/
  | popMsg (vm : Vm)
  /-- The loop of the VM runs the async callback. -/
  | runAsync (vm : Vm)

variable {Vm Service}
variable [DecidableEq Vm] [DecidableEq Service] (topology : Topology Vm Service)

/-- New contexts are idle, and all queues are empty. -/
def World.initial : World Vm Service where
  context := fun _ => {}
  msgQueue := fun _ => {}
  scan := fun _ => none
  calls := []
  finished := []
  returned := fun _ => []

/-- One step of the dispatch machine; no result when the event is not enabled. -/
def step (world : World Vm Service) : Event Vm Service → Option (World Vm Service)
  | .pushMsg vm msg =>
      let mail : Mail := { serial := world.calls.length, msg := msg }
      some { world with
        context := Function.update world.context vm ((world.context vm).pushMsg mail)
        calls := world.calls ++ [(.vm vm, msg)]
        finished := world.finished ++ [mail] }
  | .lock info msg =>
      match world.scan info with
      | none =>
          some { world with
            scan := Function.update world.scan info (some
              { mail := { serial := world.calls.length, msg := msg }
                vms := topology.map_ info
                pIdle := none })
            calls := world.calls ++ [(.service info, msg)] }
      | some _ => none
  | .isIdle info =>
      match world.scan info with
      | some { mail, vms := vm :: rest, pIdle := none } =>
          -- an idle VM ends the loop, so the entries after it are never visited
          if (world.context vm).isIdle then
            some { world with
              scan := Function.update world.scan info (some { mail, vms := rest, pIdle := some vm }) }
          else
            some { world with
              scan := Function.update world.scan info (some { mail, vms := rest, pIdle := none }) }
      | _ => none
  | .pushIdle info =>
      match world.scan info with
      | some { mail, vms := _, pIdle := some vm } =>
          some { world with
            context := Function.update world.context vm ((world.context vm).pushMsg mail)
            scan := Function.update world.scan info none
            finished := world.finished ++ [mail] }
      | _ => none
  | .put info =>
      match world.scan info with
      | some { mail, vms := [], pIdle := none } =>
          some { world with
            msgQueue := Function.update world.msgQueue info ((world.msgQueue info).put mail)
            scan := Function.update world.scan info none
            finished := world.finished ++ [mail] }
      | _ => none
  | .popMsg vm =>
      match (world.context vm).popMsg (world.msgQueue (topology.service vm)) with
      | some (mail, context, queue) =>
          some { world with
            context := Function.update world.context vm context
            msgQueue := Function.update world.msgQueue (topology.service vm) queue
            returned :=
              if mail.msg.invalid then world.returned
              else Function.update world.returned vm (world.returned vm ++ [mail]) }
      | none => none
  | .runAsync vm =>
      some { world with
        context := Function.update world.context vm
          { world.context vm with asyncPending := false } }

/-- The dispatch machine of a topology. -/
def machine : Machine (World Vm Service) (Event Vm Service) where
  init := World.initial
  step := step topology

/-- The messages a sender hands over in a step have a payload. -/
def Event.NonNull : Event Vm Service → Prop
  | .pushMsg _ msg => msg.data ≠ none
  | .lock _ msg => msg.data ≠ none
  | _ => True

section Steps

variable {topology} {world next : World Vm Service}

theorem step_lock {info : Service} {msg : Message}
    (stepped : step topology world (.lock info msg) = some next) :
    world.scan info = none ∧
      next = { world with
        scan := Function.update world.scan info (some
          { mail := { serial := world.calls.length, msg := msg }
            vms := topology.map_ info
            pIdle := none })
        calls := world.calls ++ [(.service info, msg)] } := by
  simp only [step] at stepped
  split at stepped
  · exact ⟨‹_›, (Option.some.inj stepped).symm⟩
  · cases stepped

theorem step_isIdle {info : Service} (stepped : step topology world (.isIdle info) = some next) :
    ∃ mail vm rest, world.scan info = some { mail, vms := vm :: rest, pIdle := none } ∧
      next = { world with
        scan := Function.update world.scan info (some
          { mail, vms := rest, pIdle := if (world.context vm).isIdle then some vm else none }) } := by
  simp only [step] at stepped
  split at stepped
  · rename_i mail vm rest scanning
    refine ⟨mail, vm, rest, scanning, ?_⟩
    by_cases idle : (world.context vm).isIdle
    · simp only [idle, ↓reduceIte, Option.some.injEq] at stepped ⊢
      exact stepped.symm
    · simp only [idle, Bool.false_eq_true, ↓reduceIte, Option.some.injEq] at stepped ⊢
      exact stepped.symm
  · cases stepped

theorem step_pushIdle {info : Service}
    (stepped : step topology world (.pushIdle info) = some next) :
    ∃ mail vms vm, world.scan info = some { mail, vms, pIdle := some vm } ∧
      next = { world with
        context := Function.update world.context vm ((world.context vm).pushMsg mail)
        scan := Function.update world.scan info none
        finished := world.finished ++ [mail] } := by
  simp only [step] at stepped
  split at stepped
  · rename_i mail vms vm scanning
    exact ⟨mail, vms, vm, scanning, (Option.some.inj stepped).symm⟩
  · cases stepped

theorem step_put {info : Service} (stepped : step topology world (.put info) = some next) :
    ∃ mail, world.scan info = some { mail, vms := [], pIdle := none } ∧
      next = { world with
        msgQueue := Function.update world.msgQueue info ((world.msgQueue info).put mail)
        scan := Function.update world.scan info none
        finished := world.finished ++ [mail] } := by
  simp only [step] at stepped
  split at stepped
  · rename_i mail scanning
    exact ⟨mail, scanning, (Option.some.inj stepped).symm⟩
  · cases stepped

theorem step_popMsg {vm : Vm} (stepped : step topology world (.popMsg vm) = some next) :
    ∃ mail context queue,
      (world.context vm).popMsg (world.msgQueue (topology.service vm)) =
        some (mail, context, queue) ∧
      next = { world with
        context := Function.update world.context vm context
        msgQueue := Function.update world.msgQueue (topology.service vm) queue
        returned :=
          if mail.msg.invalid then world.returned
          else Function.update world.returned vm (world.returned vm ++ [mail]) } := by
  simp only [step] at stepped
  split at stepped
  · rename_i mail context queue popped
    exact ⟨mail, context, queue, popped, (Option.some.inj stepped).symm⟩
  · cases stepped

end Steps

/-! ## The history -/

/-- The call that begins with an event. -/
def Event.call : Event Vm Service → List (Target Vm Service × Message)
  | .pushMsg vm msg => [(.vm vm, msg)]
  | .lock info msg => [(.service info, msg)]
  | _ => []

/-- The message whose call ends with an event: a `pushMsg` begins and ends at once, and a
`pushMsg2FreeVm` ends with its `pushMsg` or its `put`. -/
def World.ends (world : World Vm Service) : Event Vm Service → List Mail
  | .pushMsg _ msg => [{ serial := world.calls.length, msg := msg }]
  | .pushIdle info => (world.scan info).toList.map Scan.mail
  | .put info => (world.scan info).toList.map Scan.mail
  | _ => []

/-- The message that a `popMsg` of the VM returns, unless it is the empty one. -/
def World.returns (topology : Topology Vm Service) (vm : Vm) (world : World Vm Service) :
    Event Vm Service → List Mail
  | .popMsg other =>
      if other = vm then
        (((world.context vm).popMsg (world.msgQueue (topology.service vm))).toList.map
          Prod.fst).filter fun mail => !mail.msg.invalid
      else []
  | _ => []

/-- Each step appends to the history what it is. -/
theorem history_step {topology : Topology Vm Service} {world next : World Vm Service}
    {event : Event Vm Service} (stepped : step topology world event = some next) :
    next.calls = world.calls ++ event.call ∧ next.finished = world.finished ++ world.ends event ∧
      ∀ vm, next.returned vm = world.returned vm ++ world.returns topology vm event := by
  cases event with
  | pushMsg vm msg =>
      cases stepped
      exact ⟨rfl, rfl, fun _ => (List.append_nil _).symm⟩
  | lock info msg =>
      obtain ⟨_, rfl⟩ := step_lock stepped
      exact ⟨rfl, (List.append_nil _).symm, fun _ => (List.append_nil _).symm⟩
  | isIdle info =>
      obtain ⟨mail, vm, rest, _, rfl⟩ := step_isIdle stepped
      exact ⟨(List.append_nil _).symm, (List.append_nil _).symm,
        fun _ => (List.append_nil _).symm⟩
  | pushIdle info =>
      obtain ⟨mail, vms, vm, scanning, rfl⟩ := step_pushIdle stepped
      refine ⟨(List.append_nil _).symm, ?_, fun _ => (List.append_nil _).symm⟩
      simp [World.ends, scanning]
  | put info =>
      obtain ⟨mail, scanning, rfl⟩ := step_put stepped
      refine ⟨(List.append_nil _).symm, ?_, fun _ => (List.append_nil _).symm⟩
      simp [World.ends, scanning]
  | popMsg vm =>
      obtain ⟨mail, context, queue, popped, rfl⟩ := step_popMsg stepped
      refine ⟨(List.append_nil _).symm, (List.append_nil _).symm, fun other => ?_⟩
      by_cases same : vm = other
      · subst same
        cases null : mail.msg.invalid <;> simp [World.returns, popped, null]
      · have apart : other ≠ vm := fun equal => same equal.symm
        cases null : mail.msg.invalid <;> simp [World.returns, same, apart]
  | runAsync vm =>
      cases stepped
      exact ⟨(List.append_nil _).symm, (List.append_nil _).symm,
        fun _ => (List.append_nil _).symm⟩

/-- **The history is that of the events.** The lists of a world are the calls that have begun, the
messages whose calls have ended and the messages that each VM's `popMsg` has returned, in the
order of the run. -/
theorem history_of_run (topology : Topology Vm Service) {events : List (Event Vm Service)}
    {world : World Vm Service} (ran : (machine topology).run events = some world) :
    world.calls = events.flatMap Event.call ∧
      world.finished = (machine topology).collect World.ends World.initial events ∧
      ∀ vm, world.returned vm =
        (machine topology).collect (World.returns topology vm) World.initial events := by
  refine ⟨?_, ?_, fun vm => ?_⟩
  · refine (machine topology).run_history_invariant
      (fun events world => world.calls = events.flatMap Event.call) rfl ?_ events world ran
    intro events world event next logged stepped
    rw [(history_step stepped).1, logged, List.flatMap_append, List.flatMap_singleton]
  · have logged (state : World Vm Service) (event : Event Vm Service) (next : World Vm Service)
        (stepped : step topology state event = some next) :
        next.finished = state.finished ++ state.ends event := (history_step stepped).2.1
    exact (machine topology).run_log rfl logged events world ran
  · have logged (state : World Vm Service) (event : Event Vm Service) (next : World Vm Service)
        (stepped : step topology state event = some next) :
        next.returned vm = state.returned vm ++ state.returns topology vm event :=
      (history_step stepped).2.2 vm
    exact (machine topology).run_log rfl logged events world ran

/-- A scan holds a message with a payload and only VMs of its service. -/
structure Scan.Sound (info : Service) (scan : Scan Vm) : Prop where
  mail : scan.mail.msg.data ≠ none
  vms : ∀ vm ∈ scan.vms, topology.service vm = info
  pIdle : ∀ vm, scan.pIdle = some vm → topology.service vm = info

/-- Every queued message has a payload, and every scan in progress is sound. -/
structure Sound (world : World Vm Service) : Prop where
  own : ∀ vm, (world.context vm).msgQueue_.Valid
  shared : ∀ info, (world.msgQueue info).Valid
  scan : ∀ info scan, world.scan info = some scan → scan.Sound topology info

variable {topology}

omit [DecidableEq Vm] [DecidableEq Service] in
theorem sound_initial : Sound topology (World.initial : World Vm Service) where
  own := fun _ => BlockQueue.Valid.empty
  shared := fun _ => BlockQueue.Valid.empty
  scan := by simp [World.initial]

variable {world next : World Vm Service}

omit [DecidableEq Vm] in
/-- Replacing one scan of a sound world by another sound one, or by none. -/
theorem Sound.update_scan (sound : Sound topology world) (info : Service) (scan : Option (Scan Vm))
    (kept : ∀ new, scan = some new → new.Sound topology info) :
    ∀ other new, Function.update world.scan info scan other = some new →
      new.Sound topology other :=
  (Function.forall_update_iff world.scan
    (fun other scan => ∀ new, scan = some new → new.Sound topology other)).mpr
    ⟨kept, fun other _ => sound.scan other⟩

omit [DecidableEq Service] in
theorem Sound.update_context (sound : Sound topology world) (vm : Vm) (context : VmContext)
    (valid : context.msgQueue_.Valid) :
    ∀ other, (Function.update world.context vm context other).msgQueue_.Valid :=
  (Function.forall_update_iff world.context (fun _ context => context.msgQueue_.Valid)).mpr
    ⟨valid, fun other _ => sound.own other⟩

omit [DecidableEq Vm] in
theorem Sound.update_msgQueue (sound : Sound topology world) (info : Service)
    (queue : BlockQueue Mail) (valid : queue.Valid) :
    ∀ other, (Function.update world.msgQueue info queue other).Valid :=
  (Function.forall_update_iff world.msgQueue (fun _ queue => queue.Valid)).mpr
    ⟨valid, fun other _ => sound.shared other⟩

/-- What a `popMsg` step of a sound world does: it returns the front of the own
queue, else the front of the shared queue, else it turns idle. -/
theorem Sound.popMsg_cases (sound : Sound topology world) {vm : Vm}
    (stepped : step topology world (.popMsg vm) = some next) :
    (∃ mail rest, (world.context vm).msgQueue_.queue_ = mail :: rest ∧
      next = { world with
        context := Function.update world.context vm
          { world.context vm with bIdle := false, msgQueue_ := { queue_ := rest } }
        returned := Function.update world.returned vm (world.returned vm ++ [mail]) }) ∨
    (∃ mail rest, (world.context vm).msgQueue_.queue_ = [] ∧
      (world.msgQueue (topology.service vm)).queue_ = mail :: rest ∧
      next = { world with
        context := Function.update world.context vm { world.context vm with bIdle := false }
        msgQueue := Function.update world.msgQueue (topology.service vm) { queue_ := rest }
        returned := Function.update world.returned vm (world.returned vm ++ [mail]) }) ∨
    ((world.context vm).msgQueue_.queue_ = [] ∧
      (world.msgQueue (topology.service vm)).queue_ = [] ∧
      next = { world with
        context := Function.update world.context vm { world.context vm with bIdle := true } }) := by
  obtain ⟨mail, context, queue, popped, rfl⟩ := step_popMsg stepped
  rcases VmContext.popMsg_cases (sound.shared _) popped with
    ⟨rest, own, rfl, rfl⟩ | ⟨rest, own, shared, rfl, rfl⟩ | ⟨own, shared, rfl, rfl, rfl⟩
  · have valid := sound.own vm mail (own ▸ List.mem_cons_self)
    refine Or.inl ⟨mail, rest, own, ?_⟩
    simp only [Message.invalid, Option.isNone_iff_eq_none, valid, ↓reduceIte,
      Function.update_eq_self]
  · have valid := sound.shared _ mail (shared ▸ List.mem_cons_self)
    refine Or.inr (Or.inl ⟨mail, rest, own, shared, ?_⟩)
    simp only [Message.invalid, Option.isNone_iff_eq_none, valid, ↓reduceIte]
  · refine Or.inr (Or.inr ⟨own, shared, ?_⟩)
    have null : (default : Mail).msg.invalid = true := rfl
    simp only [null, ↓reduceIte, Function.update_eq_self]

/-- Every step keeps a world sound when the messages handed over have a payload. -/
theorem Sound.step (sound : Sound topology world) {event : Event Vm Service}
    (nonNull : event.NonNull) (stepped : step topology world event = some next) :
    Sound topology next := by
  cases event with
  | pushMsg vm msg =>
      cases stepped
      exact { sound with own := sound.update_context vm _ ((sound.own vm).put nonNull) }
  | lock info msg =>
      obtain ⟨_, rfl⟩ := step_lock stepped
      refine { sound with scan := sound.update_scan info _ ?_ }
      intro new same
      cases same
      exact ⟨nonNull, fun vm member => (topology.mem_map_ info vm).mp member,
        fun vm found => absurd found (by simp)⟩
  | isIdle info =>
      obtain ⟨mail, vm, rest, scanning, rfl⟩ := step_isIdle stepped
      have before := sound.scan info _ scanning
      refine { sound with scan := sound.update_scan info _ ?_ }
      intro new same
      cases same
      refine ⟨before.mail,
        fun other member => before.vms other (List.mem_cons_of_mem vm member), ?_⟩
      intro other found
      split at found
      · exact Option.some.inj found ▸ before.vms vm List.mem_cons_self
      · cases found
  | pushIdle info =>
      obtain ⟨mail, vms, vm, scanning, rfl⟩ := step_pushIdle stepped
      have before := sound.scan info _ scanning
      exact { sound with
        own := sound.update_context vm _ ((sound.own vm).put before.mail)
        scan := sound.update_scan info _ (fun _ absent => absurd absent (by simp)) }
  | put info =>
      obtain ⟨mail, scanning, rfl⟩ := step_put stepped
      have before := sound.scan info _ scanning
      exact { sound with
        shared := sound.update_msgQueue info _ ((sound.shared info).put before.mail)
        scan := sound.update_scan info _ (fun _ absent => absurd absent (by simp)) }
  | popMsg vm =>
      rcases sound.popMsg_cases stepped with
        ⟨mail, rest, own, rfl⟩ | ⟨mail, rest, _, shared, rfl⟩ | ⟨_, _, rfl⟩
      · exact { sound with own := sound.update_context vm _ ((sound.own vm).tail own) }
      · exact { sound with
          own := sound.update_context vm _ (sound.own vm)
          shared := sound.update_msgQueue _ _ ((sound.shared _).tail shared) }
      · exact { sound with own := sound.update_context vm _ (sound.own vm) }
  | runAsync vm =>
      cases stepped
      exact { sound with own := sound.update_context vm _ (sound.own vm) }

/-- Every run of senders with non-null payloads stays sound. -/
theorem sound_of_run {events : List (Event Vm Service)} {world : World Vm Service}
    (nonNull : ∀ event ∈ events, event.NonNull)
    (ran : (machine topology).run events = some world) : Sound topology world :=
  (machine topology).run_invariant_of_guarded (fun _ event => event.NonNull) (Sound topology)
    sound_initial (fun _ _ _ sound nonNull stepped => sound.step nonNull stepped) events world
    ((machine topology).guarded_of_forall nonNull _) ran

/-- One service with one VM. -/
def solo : Topology Unit Unit where
  service := fun _ => ()
  map_ := fun _ => [()]
  mem_map_ := by simp

end Dispatch

end EasyLua
