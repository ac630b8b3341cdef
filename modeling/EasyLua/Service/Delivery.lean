import EasyLua.Foundation.Ledger
import EasyLua.Service.Dispatch

/-!
# Where each message is

A message whose call has finished is in the own queue of a VM, in the shared queue of
a service, or among the messages a VM has returned. Each step of the dispatch machine
delivers one fresh message to a place, moves the front of a queue to the returned
messages of a VM, or leaves all messages where they are.
-/

namespace EasyLua.Dispatch

variable {Vm Service : Type}

/-- Where a message can be. -/
inductive Place (Vm Service : Type)
  | own (vm : Vm)
  | shared (info : Service)
  | returned (vm : Vm)
  deriving DecidableEq

/-- The messages at each place. -/
def held (context : Vm → VmContext) (msgQueue : Service → BlockQueue Mail)
    (returned : Vm → List Mail) : Place Vm Service → List Mail
  | .own vm => (context vm).msgQueue_.queue_
  | .shared info => (msgQueue info).queue_
  | .returned vm => returned vm

/-- The messages at each place of a world. -/
def World.held (world : World Vm Service) : Place Vm Service → List Mail :=
  Dispatch.held world.context world.msgQueue world.returned

/-- The places a message may reach: one sent to a VM stays with it, one sent to a
service stays with the service and its VMs. -/
def Target.Reaches (topology : Topology Vm Service) :
    Target Vm Service → Place Vm Service → Prop
  | .vm receiver, .own other => other = receiver
  | .vm _, .shared _ => False
  | .vm receiver, .returned other => other = receiver
  | .service info, .own receiver => topology.service receiver = info
  | .service info, .shared other => other = info
  | .service info, .returned receiver => topology.service receiver = info

/-- The call with the mail's number sent its message to the target. -/
def SentBy (calls : List (Target Vm Service × Message)) (mail : Mail)
    (target : Target Vm Service) : Prop :=
  calls[mail.serial]? = some (target, mail.msg)

/-- Every held message was sent, and is where its target lets it be. -/
def Routed (topology : Topology Vm Service) (calls : List (Target Vm Service × Message))
    (held : Place Vm Service → List Mail) : Prop :=
  ∀ place, ∀ mail ∈ held place, ∃ target, SentBy calls mail target ∧
    target.Reaches topology place

/-- What holds of the messages in every state: those of finished calls are each in one
place, where they may be, and the others are those of the scans in progress. -/
structure Accounted (topology : Topology Vm Service) (world : World Vm Service) : Prop where
  exact : Ledger.Exact world.finished world.held
  routed : Routed topology world.calls world.held
  scanning : ∀ info scan, world.scan info = some scan →
    SentBy world.calls scan.mail (.service info) ∧ scan.mail ∉ world.finished
  begun : ∀ mail target, SentBy world.calls mail target → mail ∈ world.finished ∨
    ∃ info scan, world.scan info = some scan ∧ scan.mail = mail

section Held

variable [DecidableEq Vm] [DecidableEq Service] (context : Vm → VmContext)
  (msgQueue : Service → BlockQueue Mail) (returned : Vm → List Mail)

theorem held_update_context (vm : Vm) (new : VmContext) :
    held (Function.update context vm new) msgQueue returned =
      Function.update (held context msgQueue returned) (.own vm) new.msgQueue_.queue_ := by
  rw [Function.eq_update_iff]
  refine ⟨by simp only [held, Function.update_self], ?_⟩
  intro place different
  cases place with
  | own other =>
      have apart : other ≠ vm := fun same => different (same ▸ rfl)
      simp only [held, Function.update_of_ne apart]
  | shared info => rfl
  | returned other => rfl

theorem held_update_msgQueue (info : Service) (new : BlockQueue Mail) :
    held context (Function.update msgQueue info new) returned =
      Function.update (held context msgQueue returned) (.shared info) new.queue_ := by
  rw [Function.eq_update_iff]
  refine ⟨by simp only [held, Function.update_self], ?_⟩
  intro place different
  cases place with
  | own vm => rfl
  | shared other =>
      have apart : other ≠ info := fun same => different (same ▸ rfl)
      simp only [held, Function.update_of_ne apart]
  | returned vm => rfl

theorem held_update_returned (vm : Vm) (new : List Mail) :
    held context msgQueue (Function.update returned vm new) =
      Function.update (held context msgQueue returned) (.returned vm) new := by
  rw [Function.eq_update_iff]
  refine ⟨by simp only [held, Function.update_self], ?_⟩
  intro place different
  cases place with
  | own other => rfl
  | shared info => rfl
  | returned other =>
      have apart : other ≠ vm := fun same => different (same ▸ rfl)
      simp only [held, Function.update_of_ne apart]

/-- A change of a context that keeps its queue moves no message. -/
theorem held_update_context_of_queue (vm : Vm) (new : VmContext)
    (same : new.msgQueue_ = (context vm).msgQueue_) :
    held (Function.update context vm new) msgQueue returned = held context msgQueue returned := by
  rw [held_update_context, same]
  exact Function.update_eq_self _ _

end Held

section Routing

variable {topology : Topology Vm Service} {calls : List (Target Vm Service × Message)}
  {places : Place Vm Service → List Mail} {mail : Mail} {target : Target Vm Service}

theorem SentBy.append (sent : SentBy calls mail target) (call : Target Vm Service × Message) :
    SentBy (calls ++ [call]) mail target := by
  unfold SentBy at sent ⊢
  have inside : mail.serial < calls.length := (List.getElem?_eq_some_iff.mp sent).1
  rw [List.getElem?_append_left inside, sent]

theorem SentBy.last (msg : Message) :
    SentBy (calls ++ [(target, msg)]) { serial := calls.length, msg } target := by
  unfold SentBy
  exact List.getElem?_concat_length

/-- A call on the extended list is an earlier one or the new one. -/
theorem SentBy.cases_append {msg : Message} {newTarget : Target Vm Service}
    (sent : SentBy (calls ++ [(newTarget, msg)]) mail target) :
    SentBy calls mail target ∨
      (mail = { serial := calls.length, msg } ∧ target = newTarget) := by
  unfold SentBy at sent ⊢
  by_cases inside : mail.serial < calls.length
  · rw [List.getElem?_append_left inside] at sent
    exact Or.inl sent
  · obtain ⟨bound, _⟩ := List.getElem?_eq_some_iff.mp sent
    rw [List.length_append, List.length_singleton] at bound
    have last : mail.serial = calls.length := by omega
    rw [last, List.getElem?_concat_length] at sent
    obtain ⟨rfl, sameMsg⟩ := Prod.mk.inj (Option.some.inj sent)
    refine Or.inr ⟨?_, rfl⟩
    cases mail
    cases last
    cases sameMsg
    rfl

/-- No mail carries the number of the next call. -/
theorem SentBy.serial_lt (sent : SentBy calls mail target) : mail.serial < calls.length :=
  (List.getElem?_eq_some_iff.mp sent).1

theorem SentBy.target_unique {other : Target Vm Service} (sent : SentBy calls mail target)
    (again : SentBy calls mail other) : other = target := by
  unfold SentBy at sent again
  rw [sent] at again
  exact (Prod.mk.inj (Option.some.inj again)).1.symm

theorem Routed.mono {longer : List (Target Vm Service × Message)}
    (routed : Routed topology calls places)
    (grown : ∀ mail target, SentBy calls mail target → SentBy longer mail target) :
    Routed topology longer places := by
  intro place old inside
  obtain ⟨sender, sent, reaches⟩ := routed place old inside
  exact ⟨sender, grown old sender sent, reaches⟩

variable [DecidableEq Vm] [DecidableEq Service]

/-- A sent message may be appended to a place that its target reaches. -/
theorem Routed.deliver (routed : Routed topology calls places) {place : Place Vm Service}
    (sent : SentBy calls mail target) (reaches : target.Reaches topology place) :
    Routed topology calls (Function.update places place (places place ++ [mail])) := by
  intro other old inside
  rcases Ledger.mem_update_append.mp inside with before | ⟨rfl, rfl⟩
  · exact routed other old before
  · exact ⟨target, sent, reaches⟩

theorem Routed.tail (routed : Routed topology calls places) {place : Place Vm Service}
    {rest : List Mail} (head : places place = mail :: rest) :
    Routed topology calls (Function.update places place rest) := by
  intro other old inside
  by_cases same : other = place
  · subst other
    rw [Function.update_self] at inside
    exact routed place old (head ▸ List.mem_cons_of_mem mail inside)
  · rw [Function.update_of_ne same] at inside
    exact routed other old inside

end Routing

variable [DecidableEq Vm] [DecidableEq Service] {topology : Topology Vm Service}
  {world next : World Vm Service}

omit [DecidableEq Vm] [DecidableEq Service] in
/-- A message of a finished call was sent. -/
theorem Accounted.sent (accounted : Accounted topology world) {mail : Mail}
    (member : mail ∈ world.finished) : ∃ target, SentBy world.calls mail target := by
  obtain ⟨place, inside⟩ := accounted.exact.placed mail member
  obtain ⟨target, sent, _⟩ := accounted.routed place mail inside
  exact ⟨target, sent⟩

omit [DecidableEq Vm] [DecidableEq Service] in
/-- The number of the next call is new among the finished calls. -/
theorem Accounted.fresh (accounted : Accounted topology world) (msg : Message) :
    { serial := world.calls.length, msg : Mail } ∉ world.finished := by
  intro member
  obtain ⟨_, sent⟩ := accounted.sent member
  exact absurd sent.serial_lt (Nat.lt_irrefl _)

/-- A call, new or in progress, is finished by delivering its message to a place its
target reaches. -/
theorem Accounted.finish (accounted : Accounted topology world) {mail : Mail}
    (target : Target Vm Service) (place : Place Vm Service) (sent : SentBy next.calls mail target)
    (fresh : mail ∉ world.finished) (reaches : target.Reaches topology place)
    (places : next.held = Function.update world.held place (world.held place ++ [mail]))
    (finished : next.finished = world.finished ++ [mail])
    (grown : ∀ old sender, SentBy world.calls old sender → SentBy next.calls old sender)
    (begun : ∀ old sender, SentBy next.calls old sender →
      SentBy world.calls old sender ∨ old = mail)
    (scans : ∀ info scan, next.scan info = some scan →
      world.scan info = some scan ∧ scan.mail ≠ mail)
    (left : ∀ info scan, world.scan info = some scan →
      next.scan info = some scan ∨ scan.mail = mail) : Accounted topology next where
  exact := by
    rw [finished, places]
    exact accounted.exact.deliver fresh place
  routed := by
    rw [places]
    exact (accounted.routed.mono grown).deliver sent reaches
  scanning := by
    intro info scan scanning
    obtain ⟨before, different⟩ := scans info scan scanning
    obtain ⟨logged, unfinished⟩ := accounted.scanning info scan before
    rw [finished, List.mem_append, List.mem_singleton]
    exact ⟨grown _ _ logged, fun member => member.elim unfinished different⟩
  begun := by
    intro other sender logged
    rw [finished, List.mem_append, List.mem_singleton]
    rcases begun other sender logged with before | rfl
    · rcases accounted.begun other sender before with done | ⟨info, scan, scanning, rfl⟩
      · exact Or.inl (Or.inl done)
      · rcases left info scan scanning with still | now
        · exact Or.inr ⟨info, scan, still, rfl⟩
        · exact Or.inl (Or.inr now)
    · exact Or.inl (Or.inr rfl)

/-- `popMsg` returns a message by moving it from one of its two queues. -/
theorem Accounted.take (accounted : Accounted topology world) (vm : Vm)
    (source : Place Vm Service) {mail : Mail} {rest : List Mail}
    (different : Place.returned vm ≠ source) (head : world.held source = mail :: rest)
    (along : ∀ target : Target Vm Service, target.Reaches topology source →
      target.Reaches topology (.returned vm))
    (places : next.held = Function.update (Function.update world.held source rest)
      (.returned vm) (world.held (.returned vm) ++ [mail]))
    (calls : next.calls = world.calls) (finished : next.finished = world.finished)
    (scans : next.scan = world.scan) : Accounted topology next where
  exact := by
    rw [finished, places]
    exact accounted.exact.move different head
  routed := by
    obtain ⟨target, sent, reaches⟩ :=
      accounted.routed source mail (head ▸ List.mem_cons_self)
    have moved := (accounted.routed.tail head).deliver sent (along target reaches)
    rw [Function.update_of_ne different] at moved
    rw [calls, places]
    exact moved
  scanning := by
    rw [calls, finished, scans]
    exact accounted.scanning
  begun := by
    rw [calls, finished, scans]
    exact accounted.begun

omit [DecidableEq Vm] in
/-- A scan found after one has been replaced is the new one or an old one. -/
theorem scan_of_update {scans : Service → Option (Scan Vm)} {info other : Service}
    {new : Option (Scan Vm)} {scan : Scan Vm}
    (found : Function.update scans info new other = some scan) :
    (other = info ∧ new = some scan) ∨ (other ≠ info ∧ scans other = some scan) := by
  by_cases same : other = info
  · subst other
    rw [Function.update_self] at found
    exact Or.inl ⟨rfl, found⟩
  · rw [Function.update_of_ne same] at found
    exact Or.inr ⟨same, found⟩

omit [DecidableEq Vm] in
/-- Ending a scan keeps the others, whose messages were sent by other calls. -/
theorem Accounted.end_scan (accounted : Accounted topology world) {info : Service}
    {scan : Scan Vm} (scanning : world.scan info = some scan) :
    (∀ other old, Function.update world.scan info none other = some old →
      world.scan other = some old ∧ old.mail ≠ scan.mail) ∧
    (∀ other old, world.scan other = some old →
      Function.update world.scan info none other = some old ∨ old.mail = scan.mail) := by
  constructor
  · intro other old found
    rcases scan_of_update found with ⟨_, ⟨⟩⟩ | ⟨different, found⟩
    refine ⟨found, fun sameMail => different ?_⟩
    have first := (accounted.scanning info scan scanning).1
    have second := (accounted.scanning other old found).1
    rw [sameMail] at second
    exact Target.service.inj (first.target_unique second)
  · intro other old found
    by_cases same : other = info
    · subst other
      rw [scanning] at found
      exact Or.inr (Option.some.inj found ▸ rfl)
    · rw [Function.update_of_ne same]
      exact Or.inl found

/-- A finished scan delivers its message to a place that the service's messages reach. -/
theorem Accounted.finish_scan (accounted : Accounted topology world) {info : Service}
    {scan : Scan Vm} (scanning : world.scan info = some scan) (place : Place Vm Service)
    (reaches : (Target.service info).Reaches topology place)
    (places : next.held = Function.update world.held place (world.held place ++ [scan.mail]))
    (finished : next.finished = world.finished ++ [scan.mail])
    (calls : next.calls = world.calls)
    (scans : next.scan = Function.update world.scan info none) : Accounted topology next := by
  obtain ⟨sent, fresh⟩ := accounted.scanning info scan scanning
  obtain ⟨kept, left⟩ := accounted.end_scan scanning
  apply accounted.finish _ place (calls ▸ sent) fresh reaches places finished
  · intro old sender logged
    exact calls ▸ logged
  · intro old sender logged
    exact Or.inl (calls ▸ logged)
  · rw [scans]
    exact kept
  · rw [scans]
    exact left

/-- A change of a context that keeps its queue keeps the account. -/
theorem Accounted.update_context (accounted : Accounted topology world) (vm : Vm)
    (new : VmContext) (same : new.msgQueue_ = (world.context vm).msgQueue_) :
    Accounted topology { world with context := Function.update world.context vm new } := by
  have still := held_update_context_of_queue world.context world.msgQueue world.returned vm new same
  exact ⟨by simpa only [World.held, still] using accounted.exact,
    by simpa only [World.held, still] using accounted.routed,
    accounted.scanning, accounted.begun⟩

/-- A scan begins with a message that was sent and is not finished. -/
theorem Accounted.lock (accounted : Accounted topology world) {info : Service} {msg : Message}
    (stepped : step topology world (.lock info msg) = some next) : Accounted topology next := by
  obtain ⟨quiet, rfl⟩ := step_lock stepped
  refine ⟨accounted.exact, accounted.routed.mono fun _ _ sent => sent.append _, ?_, ?_⟩
  · intro other scan scanning
    rcases scan_of_update scanning with ⟨rfl, ⟨⟩⟩ | ⟨_, before⟩
    · exact ⟨SentBy.last msg, accounted.fresh msg⟩
    · obtain ⟨sent, unfinished⟩ := accounted.scanning other scan before
      exact ⟨sent.append _, unfinished⟩
  · intro mail sender logged
    rcases logged.cases_append with before | ⟨rfl, _⟩
    · rcases accounted.begun mail sender before with done | ⟨other, scan, scanning, rfl⟩
      · exact Or.inl done
      · have apart : other ≠ info := by
          rintro rfl
          rw [quiet] at scanning
          cases scanning
        exact Or.inr ⟨other, scan, (Function.update_of_ne apart ..).trans scanning, rfl⟩
    · exact Or.inr ⟨info, _, Function.update_self .., rfl⟩

/-- `popMsg` takes a message from the place where it is held. -/
theorem Accounted.popMsg (accounted : Accounted topology world) (sound : Sound topology world)
    {vm : Vm} (stepped : step topology world (.popMsg vm) = some next) :
    Accounted topology next := by
  rcases sound.popMsg_cases stepped with
    ⟨mail, rest, own, rfl⟩ | ⟨mail, rest, empty, shared, rfl⟩ | ⟨empty, shared, rfl⟩
  · refine accounted.take vm (.own vm) (by simp) own ?_ ?_ rfl rfl rfl
    · intro target reaches
      cases target <;> exact reaches
    · change held _ _ _ = _
      rw [held_update_returned, held_update_context]
      rfl
  · refine accounted.take vm (.shared (topology.service vm)) (by simp)
      shared ?_ ?_ rfl rfl rfl
    · intro target reaches
      cases target with
      | vm receiver => exact reaches.elim
      | service info => exact reaches
    · change held _ _ _ = _
      have still := held_update_context_of_queue world.context
        (Function.update world.msgQueue (topology.service vm) { queue_ := rest })
        (Function.update world.returned vm (world.returned vm ++ [mail])) vm
        { world.context vm with bIdle := false } rfl
      rw [still, held_update_returned, held_update_msgQueue]
      rfl
  · exact accounted.update_context vm { world.context vm with bIdle := true } rfl

/-- Each step keeps every message accounted for. -/
theorem Accounted.step (sound : Sound topology world) (accounted : Accounted topology world)
    {event : Event Vm Service} (stepped : step topology world event = some next) :
    Accounted topology next := by
  cases event with
  | pushMsg vm msg =>
      cases stepped
      refine accounted.finish (.vm vm) (.own vm) (SentBy.last msg)
        (accounted.fresh msg) rfl (held_update_context ..) rfl ?_ ?_ ?_ ?_
      · exact fun old sender logged => logged.append _
      · intro old sender logged
        exact logged.cases_append.imp id And.left
      · intro info scan scanning
        refine ⟨scanning, fun same => ?_⟩
        have before := (accounted.scanning info scan scanning).1.serial_lt
        rw [same] at before
        exact absurd before (Nat.lt_irrefl _)
      · exact fun info scan scanning => Or.inl scanning
  | lock info msg => exact accounted.lock stepped
  | isIdle info =>
      obtain ⟨mail, vm, rest, scanning, rfl⟩ := step_isIdle stepped
      refine ⟨accounted.exact, accounted.routed, ?_, ?_⟩
      · intro other scan found
        rcases scan_of_update found with ⟨rfl, ⟨⟩⟩ | ⟨_, before⟩
        · have before := accounted.scanning other _ scanning
          exact before
        · exact accounted.scanning other scan before
      · intro old sender logged
        rcases accounted.begun old sender logged with done | ⟨other, scan, found, rfl⟩
        · exact Or.inl done
        · by_cases same : other = info
          · subst other
            rw [scanning] at found
            cases Option.some.inj found
            exact Or.inr ⟨info, _, Function.update_self .., rfl⟩
          · exact Or.inr ⟨other, scan, (Function.update_of_ne same ..).trans found, rfl⟩
  | pushIdle info =>
      obtain ⟨mail, vms, vm, scanning, rfl⟩ := step_pushIdle stepped
      have mine : topology.service vm = info := (sound.scan info _ scanning).pIdle vm rfl
      exact accounted.finish_scan scanning (.own vm) mine (held_update_context ..)
        rfl rfl rfl
  | put info =>
      obtain ⟨mail, scanning, rfl⟩ := step_put stepped
      exact accounted.finish_scan scanning (.shared info) rfl
        (held_update_msgQueue ..) rfl rfl rfl
  | popMsg vm => exact accounted.popMsg sound stepped
  | runAsync vm =>
      cases stepped
      exact accounted.update_context vm { world.context vm with asyncPending := false } rfl

end EasyLua.Dispatch
