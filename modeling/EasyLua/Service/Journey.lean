import EasyLua.Service.Locking
import EasyLua.Service.MessageSize
import EasyLua.Seri.RoundTrip

/-!
# The journey of a message

A script packs values, one of its calls puts the bytes into queues, another VM takes them out
and its script unpacks them. Whatever the threads do in between, each message that a VM takes
was put there by one call, for this VM or its service; and if the call had the bytes and the
length that `luaseri_pack` returned, the receiver unpacks values that the packed ones denote.
-/

namespace EasyLua

namespace Journey

open Locking
open Locks.Program
open Seri (Heap LuaValue MAX_DEPTH)

variable {Vm Service Thread : Type} (population : Population Vm Service)

/-! ## Who sends what to whom -/

/-- The call may put the message into a queue from which the VM takes. -/
def Sends : Call Vm → Vm → Mail → Prop
  | .sendByVmId self targetVmId charMsg size, receiver, mail =>
      population.contextMgr.fetch (fun _ => true) targetVmId.toInt32 = some receiver ∧
        ∃ session : Int32, 1 ≤ session.toInt ∧
          mail = message population self session charMsg
            (size.toUInt64 ||| Address.MSG_TYPE_LUA <<< Address.MESSAGE_TYPE_SHIFT)
  | .sendByServiceName self serviceName charMsg size, receiver, mail =>
      population.serviceMgr.fetch (fun _ => true) serviceName =
          some (population.service receiver) ∧
        ∃ session : Int32, 1 ≤ session.toInt ∧
          mail = message population self session charMsg
            (size.toUInt64 ||| Address.MSG_TYPE_LUA <<< Address.MESSAGE_TYPE_SHIFT)
  | .iAmReady self pBuff len, receiver, mail =>
      receiver ∈ population.contextMgr.map_.values ∧
        population.serviceName (population.service self) ≠
          population.serviceName (population.service receiver) ∧
        mail = message population self 0 pBuff
          (len.toUInt64 ||| MSG_TYPE_TEXT <<< Address.MESSAGE_TYPE_SHIFT)
  | .getInternalMsgNonBlock _, _, _ => False
  | .runAsync _, _, _ => False

/-- A thread has called for the message to be sent to the VM. -/
def Sent (events : List (Locks.Event Thread (Call Vm))) (receiver : Vm) (mail : Mail) : Prop :=
  ∃ thread call, .start thread call ∈ events ∧ Sends population call receiver mail

/-- All VMs that take from the queue have been sent the message. -/
def Addressed (events : List (Locks.Event Thread (Call Vm))) (mail : Mail) :
    QueueOf Vm Service → Prop
  | .own vm => Sent population events vm mail
  | .shared info => ∀ vm, population.service vm = info → Sent population events vm mail

/-- Every message in a queue was sent to those who take from the queue. -/
def Accounted (events : List (Locks.Event Thread (Call Vm))) (state : State Vm Service) : Prop :=
  ∀ queue, ∀ mail ∈ (state.queue queue).queue_, Addressed population events mail queue

/-- What a VM takes was sent to it, unless it is null; no other call returns a message. -/
def Good (events : List (Locks.Event Thread (Call Vm))) : Call Vm → Result → Prop
  | .getInternalMsgNonBlock self, result => ∃ mail, result = .popped mail ∧
      (mail.msg.data ≠ none → Sent population events self mail)
  | _, result => ∀ mail, result ≠ .popped mail

/-! ## The calls keep account -/

section Queues

variable [DecidableEq Vm] [DecidableEq Service] {population}
  {events : List (Locks.Event Thread (Call Vm))} {state : State Vm Service}

theorem queue_setQueue (state : State Vm Service) (contents : BlockQueue Mail)
    (queue other : QueueOf Vm Service) :
    (state.setQueue contents queue).queue other =
      if other = queue then contents else state.queue other := by
  cases queue with
  | own vm =>
      cases other with
      | own another =>
          by_cases same : another = vm
          · subst same
            simp [State.setQueue, State.modifyContext, State.queue]
          · simp [State.setQueue, State.modifyContext, State.queue, same]
      | shared info => simp [State.setQueue, State.modifyContext, State.queue]
  | shared info =>
      cases other with
      | own another => simp [State.setQueue, State.queue]
      | shared another =>
          by_cases same : another = info
          · subst same
            simp [State.setQueue, State.queue]
          · simp [State.setQueue, State.queue, same]

omit [DecidableEq Service] in
/-- The flags of a context are no part of its queue. -/
theorem queue_modifyContext (state : State Vm Service) (vm : Vm)
    {function : VmContext → VmContext}
    (kept : ∀ context, (function context).msgQueue_ = context.msgQueue_)
    (queue : QueueOf Vm Service) :
    (state.modifyContext vm function).queue queue = state.queue queue := by
  cases queue with
  | own another =>
      by_cases same : another = vm
      · subst same
        simp [State.modifyContext, State.queue, kept]
      · simp [State.modifyContext, State.queue, same]
  | shared info => rfl

omit [DecidableEq Vm] [DecidableEq Service] in
theorem Accounted.of_queues {next : State Vm Service}
    (same : ∀ queue, next.queue queue = state.queue queue)
    (accounted : Accounted population events state) : Accounted population events next := by
  intro queue mail member
  rw [same] at member
  exact accounted queue mail member

/-- The new contents have to be accounted for. -/
theorem Accounted.setQueue (accounted : Accounted population events state)
    {contents : BlockQueue Mail} {queue : QueueOf Vm Service}
    (addressed : ∀ mail ∈ contents.queue_, Addressed population events mail queue) :
    Accounted population events (state.setQueue contents queue) := by
  intro other mail member
  rw [queue_setQueue] at member
  split at member
  · rename_i same
    subst same
    exact addressed mail member
  · exact accounted other mail member

/-- `takeNonBlock` removes the front, if there is one. -/
theorem takeNonBlock_cases (queue : BlockQueue Mail) :
    (queue.takeNonBlock = (default, queue)) ∨ ∃ front rest, queue.queue_ = front :: rest ∧
      queue.takeNonBlock = (front, { queue_ := rest }) := by
  unfold BlockQueue.takeNonBlock
  cases contents : queue.queue_ with
  | nil => exact Or.inl rfl
  | cons front rest => exact Or.inr ⟨front, rest, rfl, rfl⟩

variable (events) in
theorem maintains_put (queue : QueueOf Vm Service) {mail : Mail}
    (addressed : Addressed population events mail queue) :
    (put queue mail).Maintains (Accounted population events) fun _ => True := by
  refine Maintains.withLock (maintains_write fun state accounted => accounted.setQueue ?_)
  intro other member
  rcases List.mem_append.mp member with old | new
  · exact accounted queue other old
  · rw [List.mem_singleton.mp new]
    exact addressed

theorem maintains_popFront (queue : QueueOf Vm Service) :
    (popFront queue).Maintains (Accounted population events) fun mail =>
      mail.msg.data ≠ none → Addressed population events mail queue := by
  refine maintains_modifyGet fun state accounted => ?_
  rcases takeNonBlock_cases (state.queue queue) with empty | ⟨front, rest, filled, taken⟩
  · rw [empty]
    exact ⟨accounted.setQueue (accounted queue), fun payload => absurd rfl payload⟩
  · rw [taken]
    have all := accounted queue
    rw [filled] at all
    exact ⟨accounted.setQueue fun mail member => all mail (List.mem_cons_of_mem front member),
      fun _ => all front List.mem_cons_self⟩

omit [DecidableEq Service] in
theorem maintains_setIdle (vm : Vm) (bIdle : Bool) :
    (write fun state => state.setIdle vm bIdle : Action Vm Service PUnit).Maintains
      (Accounted population events) fun _ => True :=
  maintains_write fun state accounted =>
    accounted.of_queues (queue_modifyContext state vm fun _ => rfl)

omit [DecidableEq Service] in
theorem maintains_setAsync (vm : Vm) (asyncPending : Bool) :
    (setAsync vm asyncPending : Action Vm Service Unit).Maintains
      (Accounted population events) fun _ => True :=
  Maintains.withLock (maintains_write fun state accounted =>
    accounted.of_queues (queue_modifyContext state vm fun _ => rfl))

theorem maintains_pushMsg {vm : Vm} {mail : Mail} (sent : Sent population events vm mail) :
    (pushMsg vm mail : Action Vm Service Unit).Maintains
      (Accounted population events) fun _ => True :=
  Maintains.withLock ((maintains_setIdle vm false).bind fun _ _ =>
    (maintains_put events (.own vm) sent).bind fun _ _ => maintains_setAsync vm true)

omit [DecidableEq Service] in
/-- The session of a message is positive. -/
theorem maintains_newSession (vm : Vm) :
    (newSession vm : Action Vm Service Int32).Maintains (Accounted population events)
      fun session => 1 ≤ session.toInt := by
  refine Maintains.withLock (maintains_modifyGet fun state accounted => ?_)
  have positive := (Session.rank_newSession (state.sessionId vm)).1
  rw [Session.newSession_eq]
  refine ⟨accounted.of_queues fun queue => ?_, ?_⟩
  · cases queue <;> rfl
  · unfold Session.rank at positive
    dsimp only
    omega

end Queues

section Calls

variable [DecidableEq Vm] [DecidableEq Service]
  {events : List (Locks.Event Thread (Call Vm))}

omit [DecidableEq Vm] [DecidableEq Service] in
theorem maintains_isIdle (vm : Vm) :
    (isIdle vm : Action Vm Service Bool).Maintains (Accounted population events) fun _ => True :=
  Maintains.withLock (maintains_read fun _ _ => trivial)

omit [DecidableEq Vm] [DecidableEq Service] in
/-- The idle VM that is found is one of those that are asked. -/
theorem maintains_findIdle (vms : List Vm) :
    (findIdle vms : Action Vm Service (Option Vm)).Maintains (Accounted population events)
      fun found => ∀ vm, found = some vm → vm ∈ vms := by
  induction vms with
  | nil => exact maintains_pure nofun
  | cons vm rest ih =>
      refine (maintains_isIdle population vm).bind fun idle _ => ?_
      split
      · refine maintains_pure fun found same => ?_
        cases same
        exact List.mem_cons_self
      · exact ih.weaken fun found member vm same => List.mem_cons_of_mem _ (member vm same)

/-- A message to a service is sent to each of its VMs. -/
theorem maintains_pushMsg2FreeVm {info : Service} {mail : Mail}
    (sent : ∀ vm, population.service vm = info → Sent population events vm mail) :
    (pushMsg2FreeVm population info mail).Maintains (Accounted population events)
      fun _ => True := by
  refine Maintains.withLock ((maintains_findIdle population _).bind fun pIdle found => ?_)
  split
  · rename_i vm
    exact maintains_pushMsg (sent vm ((population.mem_map_ info vm).mp (found vm rfl)))
  · exact maintains_put events (.shared info) sent

/-- Whether from its own queue or from that of its service, a VM takes what was sent to it. -/
theorem maintains_popMsg (vm : Vm) :
    (popMsg population vm).Maintains (Accounted population events) fun mail =>
      mail.msg.data ≠ none → Sent population events vm mail := by
  have size_ : (size (.own vm) : Action Vm Service Nat).Maintains (Accounted population events)
      fun _ => True := Maintains.withLock (maintains_read fun _ _ => trivial)
  refine Maintains.withLock (size_.bind fun filled _ => ?_)
  split
  · exact (maintains_setIdle vm false).bind fun _ _ =>
      Maintains.withLock (maintains_popFront (.own vm))
  · refine (Maintains.withLock (maintains_popFront (.shared (population.service vm)))).bind
      fun mail addressed => ?_
    split
    · rename_i payload
      exact (maintains_setIdle vm false).bind fun _ _ =>
        maintains_pure fun _ => addressed payload vm rfl
    · exact (maintains_setIdle vm true).bind fun _ _ =>
        maintains_pure fun payload => absurd rfl payload

theorem maintains_report (self : Vm) {mail : Mail} (vms : List Vm)
    (sent : ∀ vm ∈ vms, population.serviceName (population.service self) ≠
      population.serviceName (population.service vm) → Sent population events vm mail) :
    (report population self mail vms).Maintains (Accounted population events) fun _ => True := by
  induction vms with
  | nil => exact maintains_pure trivial
  | cons obj rest ih =>
      have later := ih fun vm member => sent vm (List.mem_cons_of_mem obj member)
      unfold report
      split
      · exact later
      · rename_i different
        exact (maintains_pushMsg (sent obj List.mem_cons_self different)).bind fun _ _ => later

theorem maintains_sendByVmId (self : Vm) (targetVmId : Int64) (charMsg : Option (List UInt8))
    (size : Int64)
    (sent : ∀ receiver mail, Sends population (.sendByVmId self targetVmId charMsg size) receiver
      mail → Sent population events receiver mail) :
    (sendByVmId population self targetVmId charMsg size).Maintains (Accounted population events)
      fun _ => True := by
  have fetched : (fetchContext population targetVmId.toInt32).Maintains
      (Accounted population events)
      fun target => target = population.contextMgr.fetch (fun _ => true) targetVmId.toInt32 :=
    Maintains.withLock (maintains_pure rfl)
  refine (maintains_newSession self).bind fun session positive => fetched.bind
    fun target found => ?_
  split
  · refine (maintains_pushMsg (sent _ _ ?_)).bind fun _ _ => maintains_pure trivial
    exact ⟨found.symm, session, positive, rfl⟩
  · exact maintains_pure trivial

theorem maintains_sendByServiceName (self : Vm) (serviceName : String)
    (charMsg : Option (List UInt8)) (size : Int64)
    (sent : ∀ receiver mail, Sends population (.sendByServiceName self serviceName charMsg size)
      receiver mail → Sent population events receiver mail) :
    (sendByServiceName population self serviceName charMsg size).Maintains
      (Accounted population events) fun _ => True := by
  have fetched : (fetchService population serviceName).Maintains (Accounted population events)
      fun target => target = population.serviceMgr.fetch (fun _ => true) serviceName :=
    Maintains.withLock (maintains_pure rfl)
  refine (maintains_newSession self).bind fun session positive => fetched.bind
    fun target found => ?_
  split
  · refine (maintains_pushMsg2FreeVm population fun vm member => sent _ _ ?_).bind
      fun _ _ => maintains_pure trivial
    subst member
    exact ⟨found.symm, session, positive, rfl⟩
  · exact maintains_pure trivial

/-- Every call that is started keeps account. -/
theorem maintained :
    Locks.Maintained (body population) (Accounted population events)
      (fun _ => Good population events) events := by
  intro thread call started
  have sent (receiver : Vm) (mail : Mail) (sends : Sends population call receiver mail) :
      Sent population events receiver mail := ⟨thread, call, started, sends⟩
  cases call with
  | sendByVmId self targetVmId charMsg size =>
      exact (maintains_sendByVmId population self targetVmId charMsg size sent).bind
        fun _ _ => maintains_pure nofun
  | sendByServiceName self serviceName charMsg size =>
      exact (maintains_sendByServiceName population self serviceName charMsg size sent).bind
        fun _ _ => maintains_pure nofun
  | iAmReady self pBuff len =>
      refine (maintains_report population self _ fun vm member different => sent _ _ ?_).bind
        fun _ _ => maintains_pure nofun
      exact ⟨member, different, rfl⟩
  | getInternalMsgNonBlock self =>
      exact (maintains_popMsg population self).bind fun mail addressed =>
        maintains_pure ⟨mail, rfl, addressed⟩
  | runAsync vm =>
      exact (maintains_setAsync vm false).bind fun _ _ => maintains_pure nofun

end Calls

/-! ## What the receiver unpacks -/

/-- The bytes of `c_str()`, up to the first null. -/
def cString (str : String) : Seri.Bytes := str.toUTF8.toList.takeWhile (· ≠ 0)

/-- What `iAmReady` packs. -/
def reportValues (self : Vm) : List LuaValue :=
  [.scalar (.string (cString "REPORT")),
    .scalar (.integer ((population.handle_ self).toBitVec.setWidth 64)),
    .scalar (.string (cString (population.serviceName (population.service self))))]

/-- The buffer and the length are what `luaseri_pack` has returned for values that survive it. -/
structure Packed (heap : Heap) (values : List LuaValue) (buffer : Option (List UInt8))
    (size : Int64) : Prop where
  serializable : ∀ value ∈ values, Seri.Serializable heap (MAX_DEPTH + 1) value
  small : (Seri.Format.encode heap (MAX_DEPTH + 1) values).length < 2 ^ 31
  packed : ∃ bytes len, Seri.luaseriPack heap values = .ok (bytes, len) ∧
    buffer = some bytes ∧ size.toInt = len

/-- The call is handed these values in their packed form. -/
def Hands (heap : Heap) (values : List LuaValue) : Call Vm → Prop
  | .sendByVmId _ _ charMsg size => Packed heap values charMsg size
  | .sendByServiceName _ _ charMsg size => Packed heap values charMsg size
  | .iAmReady self pBuff len =>
      values = reportValues population self ∧ Packed heap values pBuff len
  | .getInternalMsgNonBlock _ => False
  | .runAsync _ => False

/-- The VM of the call. -/
def sender : Call Vm → Vm
  | .sendByVmId self _ _ _ => self
  | .sendByServiceName self _ _ _ => self
  | .iAmReady self _ _ => self
  | .getInternalMsgNonBlock self => self
  | .runAsync vm => vm

/-- The type that the call gives to its messages. -/
def type : Call Vm → Nat
  | .iAmReady _ _ _ => MessageSize.MSG_TYPE_TEXT
  | _ => MessageSize.MSG_TYPE_LUA

theorem type_lt (call : Call Vm) : type call < 2 ^ 8 := by
  unfold type MessageSize.MSG_TYPE_TEXT MessageSize.MSG_TYPE_LUA
  cases call <;> simp

/-- A message where `size_t` has 64 bits. -/
def wide (msg : Message) : MessageSize.Message .bits64 where
  sourceServiceName := msg.sourceServiceName
  sourceVm := msg.sourceVm
  session := msg.session
  data := msg.data
  sz := msg.sz.toBitVec

/-- The receiver has the type, and unpacks what the packed values denote. -/
def Unpacks (heap : Heap) (values : List LuaValue) (type : Nat)
    (received : MessageSize.Received) : Prop :=
  received.type.toInt = type ∧ ∃ data rb,
    Seri.luaseriUnpack (.pointer (some received.data) received.sz.toBitVec) = .ok data rb ∧
      List.Forall₂ (Seri.Denotes heap) values data

theorem getInternalMsgNonBlock_eq_some {width : MessageSize.SizeT}
    {msg : MessageSize.Message width} {received : MessageSize.Received}
    (got : MessageSize.getInternalMsgNonBlock msg = some received) :
    msg.data = some received.data ∧ received.sourceServiceName = msg.sourceServiceName ∧
      received.sourceVm = msg.sourceVm ∧ received.session = msg.session ∧
      received.type = msg.type ∧ received.sz = msg.size := by
  unfold MessageSize.getInternalMsgNonBlock at got
  split at got
  · cases got
  · cases got
    exact ⟨‹_›, rfl, rfl, rfl, rfl, rfl⟩

/-- A buffer with its length comes out of the message as it went in. -/
theorem Packed.unpacks {heap : Heap} {values : List LuaValue} {buffer : Option (List UInt8)}
    {size : Int64} (packed : Packed heap values buffer size) {type : Nat} (byte : type < 2 ^ 8)
    {msg : MessageSize.Message .bits64} {received : MessageSize.Received}
    (got : MessageSize.getInternalMsgNonBlock msg = some received) (data : msg.data = buffer)
    (word : msg.sz = MessageSize.typedSize .bits64 type size) :
    Unpacks heap values type received := by
  obtain ⟨data_, _, _, _, type_, sz⟩ := getInternalMsgNonBlock_eq_some got
  obtain ⟨bytes, len, made, rfl, length⟩ := packed.packed
  rw [Seri.luaseriPack_of_serializable packed.serializable packed.small] at made
  cases made
  have small := packed.small
  have inRange : MessageSize.InRange .bits64 size := by
    have width : MessageSize.SizeT.bits64.bits = 64 := rfl
    unfold MessageSize.InRange
    rw [length, width]
    omega
  have same : received.sz = size := sz.trans ((MessageSize.size_iff msg word).mpr inRange)
  have bytes : received.data = Seri.Format.encode heap (MAX_DEPTH + 1) values :=
    Option.some.inj (data_.symm.trans data)
  have given : (Seri.UnpackArgument.pointer (some received.data) received.sz.toBitVec).Gives
      (Seri.Format.encode heap (MAX_DEPTH + 1) values) := by
    rw [same, bytes]
    exact ⟨rfl, length⟩
  refine ⟨?_, ?_⟩
  · rw [type_, MessageSize.type_of_inRange msg word byte inRange]
  · exact Seri.luaseriUnpack_of_serializable packed.serializable small given

variable {population} in
/-- What was handed to a call is what the receiver of its message unpacks. -/
theorem Sends.unpacks {call : Call Vm} {receiver : Vm} {mail : Mail}
    (sends : Sends population call receiver mail) {received : MessageSize.Received}
    (got : MessageSize.getInternalMsgNonBlock (wide mail.msg) = some received) {heap : Heap}
    {values : List LuaValue} (hands : Hands population heap values call) :
    Unpacks heap values (type call) received := by
  have lua (size : Int64) :
      (size.toUInt64 ||| Address.MSG_TYPE_LUA <<< Address.MESSAGE_TYPE_SHIFT).toBitVec =
        MessageSize.typedSize .bits64 MessageSize.MSG_TYPE_LUA size := by
    rw [MessageSize.typedSize_eq]
    rfl
  have text (size : Int64) :
      (size.toUInt64 ||| MSG_TYPE_TEXT <<< Address.MESSAGE_TYPE_SHIFT).toBitVec =
        MessageSize.typedSize .bits64 MessageSize.MSG_TYPE_TEXT size := by
    rw [MessageSize.typedSize_eq]
    rfl
  cases call with
  | sendByVmId self targetVmId charMsg size =>
      obtain ⟨_, session, _, rfl⟩ := sends
      exact Packed.unpacks hands (type_lt _) got rfl (lua size)
  | sendByServiceName self serviceName charMsg size =>
      obtain ⟨_, session, _, rfl⟩ := sends
      exact Packed.unpacks hands (type_lt _) got rfl (lua size)
  | iAmReady self pBuff len =>
      obtain ⟨_, _, rfl⟩ := sends
      exact hands.2.unpacks (type_lt _) got rfl (text len)
  | getInternalMsgNonBlock self => exact hands.elim
  | runAsync vm => exact hands.elim

variable {population} in
/-- A message has the name of its sender's service and its handle. -/
theorem Sends.source {call : Call Vm} {receiver : Vm} {mail : Mail}
    (sends : Sends population call receiver mail) :
    mail.msg.sourceServiceName = population.serviceName (population.service (sender call)) ∧
      mail.msg.sourceVm = population.handle_ (sender call) := by
  cases call with
  | sendByVmId self targetVmId charMsg size =>
      obtain ⟨_, session, _, rfl⟩ := sends
      exact ⟨rfl, rfl⟩
  | sendByServiceName self serviceName charMsg size =>
      obtain ⟨_, session, _, rfl⟩ := sends
      exact ⟨rfl, rfl⟩
  | iAmReady self pBuff len =>
      obtain ⟨_, _, rfl⟩ := sends
      exact ⟨rfl, rfl⟩
  | getInternalMsgNonBlock self => exact sends.elim
  | runAsync vm => exact sends.elim

variable [DecidableEq Vm] [DecidableEq Service] [DecidableEq Thread]

/-- **A VM receives what was sent to it, and its script unpacks what was packed.** In every run
of any number of threads, from empty queues, a message that the last call of a thread has returned
was sent to the VM of that `getInternalMsgNonBlock` by a call of some thread, whose VM is named as
its source; and if that call was handed packed values, their type and values that they denote are
what the receiver gets. -/
theorem received_was_sent (init : State Vm Service)
    (empty : ∀ queue, (init.queue queue).queue_ = [])
    (events : List (Locks.Event Thread (Call Vm)))
    (world : Locks.World (Mutex Vm Service) (State Vm Service) Thread Result)
    (ran : (machine population Thread init).run events = some world)
    (thread : Thread) (mail : Mail) (popped : world.program thread = .done (.popped mail))
    (received : MessageSize.Received)
    (got : MessageSize.getInternalMsgNonBlock (wide mail.msg) = some received) :
    ∃ receiver, Locks.callOf events thread = some (.getInternalMsgNonBlock receiver) ∧
      ∃ other call, .start other call ∈ events ∧ Sends population call receiver mail ∧
        received.sourceServiceName =
          population.serviceName (population.service (sender call)) ∧
        received.sourceVm = population.handle_ (sender call) ∧
        ∀ heap values, Hands population heap values call →
          Unpacks heap values (type call) received := by
  have start : Accounted population events init := by
    intro queue mail member
    rw [empty queue] at member
    cases member
  obtain ⟨data, name, source, _⟩ := getInternalMsgNonBlock_eq_some got
  have payload : mail.msg.data ≠ none := fun null => nomatch data.symm.trans null
  rcases (Locks.maintains_of_run start events world ran (maintained population)).2 thread with
    idle | ⟨call, calls, left⟩
  · cases popped.symm.trans idle
  · rw [popped] at left
    have good : Good population events call (.popped mail) := left
    cases call with
    | getInternalMsgNonBlock receiver =>
        obtain ⟨_, same, sent⟩ := good
        cases same
        obtain ⟨other, call, from_, sends⟩ := sent payload
        obtain ⟨names, handles⟩ := sends.source
        exact ⟨receiver, calls, other, call, from_, sends, name.trans names,
          source.trans handles, fun heap values hands => sends.unpacks got hands⟩
    | _ => exact absurd rfl (good mail)

/-- A VM sends a table with a table in it, a nil and a table to another one, which takes the
message. -/
def sendAndTake : List (Locks.Event Bool (Call Bool)) :=
  .start false (.sendByVmId false 2
      (some (Seri.Format.encode Seri.nested (MAX_DEPTH + 1) [.table 0, .nil, .table 1])) 13) ::
    List.replicate 14 (.proceed false) ++
    .start true (.getInternalMsgNonBlock true) :: List.replicate 10 (.proceed true)

/-- What the receiver unpacks then. -/
theorem received_was_sent_sendAndTake :
    ∃ world mail received,
      (machine twoVms Bool ⟨fun _ => {}, fun _ => 0, fun _ => {}⟩).run sendAndTake = some world ∧
      world.program true = .done (.popped mail) ∧
      MessageSize.getInternalMsgNonBlock (wide mail.msg) = some received ∧
      Unpacks Seri.nested [.table 0, .nil, .table 1] 1 received := by
  have size : (Seri.Format.encode Seri.nested (MAX_DEPTH + 1)
      [.table 0, .nil, .table 1]).length = 13 := rfl
  have packed : Packed Seri.nested [.table 0, .nil, .table 1]
      (some (Seri.Format.encode Seri.nested (MAX_DEPTH + 1) [.table 0, .nil, .table 1])) 13 := by
    refine ⟨Seri.serializable_nested, by omega, _, _,
      Seri.luaseriPack_of_serializable Seri.serializable_nested (by omega), rfl, ?_⟩
    rw [size]
    rfl
  have empty : ∀ queue, ((⟨fun _ => {}, fun _ => 0, fun _ => {}⟩ : State Bool Unit).queue
      queue).queue_ = [] := by
    intro queue
    cases queue <;> rfl
  have runs : ∃ world mail received,
      (machine twoVms Bool ⟨fun _ => {}, fun _ => 0, fun _ => {}⟩).run sendAndTake = some world ∧
      world.program true = .done (.popped mail) ∧
      MessageSize.getInternalMsgNonBlock (wide mail.msg) = some received :=
    ⟨_, _, _, rfl, rfl, rfl⟩
  obtain ⟨world, mail, received, ran, popped, got⟩ := runs
  refine ⟨world, mail, received, ran, popped, got, ?_⟩
  obtain ⟨receiver, _, other, call, from_, sends, _, _, unpacks⟩ :=
    received_was_sent twoVms _ empty sendAndTake world ran true mail popped received got
  rcases List.mem_append.mp from_ with sending | taking
  · rcases List.mem_cons.mp sending with same | later
    · cases same
      exact unpacks _ _ packed
    · cases List.eq_of_mem_replicate later
  · rcases List.mem_cons.mp taking with same | later
    · cases same
      exact sends.elim
    · cases List.eq_of_mem_replicate later

end Journey

end EasyLua
