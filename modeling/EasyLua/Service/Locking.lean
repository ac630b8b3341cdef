import EasyLua.Foundation.Threads
import EasyLua.Registry.Register
import EasyLua.Service.Dispatch
import EasyLua.Service.Session

/-!
# Dispatch with its mutexes

The calls of `cThisVM` on a fixed population of services and VMs, each of them down to the
mutexes that it acquires: those of the two managers, of a `cServiceInfo`, of a `cVmContext` and
of a `cBlockQueue`. Any number of threads call them.

A mutex of a service is held while those of its VMs are acquired one after the other, and a
mutex of a VM while the one of a queue is. No call acquires them the other way round, so nobody
waits forever. `popMsg` calls `take`, which would wait for a message, only with one in the queue:
no other thread can have taken it, because whoever takes holds the mutex of the VM.
-/

namespace EasyLua

namespace Locking

open Locks (Program)
open Locks.Program (read write modifyGet withLock)

variable (Vm Service : Type)

/-- A `cBlockQueue`: `msgQueue_` of a VM, or `msgQueue` of a service. -/
inductive QueueOf
  | own (vm : Vm)
  | shared (info : Service)
  deriving DecidableEq

/-- The mutexes, and the interlocked access to the flag of an async watcher. -/
inductive Mutex
  | serviceMgr
  | contextMgr
  | service (info : Service)
  | context (vm : Vm)
  | queue (queue : QueueOf Vm Service)
  | async (vm : Vm)
  deriving DecidableEq

/-- What the threads share. -/
structure State where
  context : Vm → VmContext
  sessionId : Vm → Int32
  msgQueue : Service → BlockQueue Mail

/-- The services and VMs, and what the managers have registered. -/
structure Population extends Dispatch.Topology Vm Service where
  handle_ : Vm → UInt32
  serviceName : Service → String
  contextMgr : Register Int32 Vm
  serviceMgr : Register String Service

variable {Vm Service}
variable [DecidableEq Vm] [DecidableEq Service]

namespace State

variable (state : State Vm Service)

def modifyContext (vm : Vm) (function : VmContext → VmContext) : State Vm Service :=
  { state with
    context := Function.update state.context vm (function (state.context vm)) }

omit [DecidableEq Vm] [DecidableEq Service] in
/-- The contents of a queue. -/
def queue : QueueOf Vm Service → BlockQueue Mail
  | .own vm => (state.context vm).msgQueue_
  | .shared info => state.msgQueue info

def setQueue (contents : BlockQueue Mail) : QueueOf Vm Service → State Vm Service
  | .own vm => state.modifyContext vm fun context => { context with msgQueue_ := contents }
  | .shared info => { state with msgQueue := Function.update state.msgQueue info contents }

def setIdle (vm : Vm) (bIdle : Bool) : State Vm Service :=
  state.modifyContext vm fun context => { context with bIdle := bIdle }

def setAsync (vm : Vm) (asyncPending : Bool) : State Vm Service :=
  state.modifyContext vm fun context => { context with asyncPending := asyncPending }

def setSession (vm : Vm) (sessionId : Int32) : State Vm Service :=
  { state with sessionId := Function.update state.sessionId vm sessionId }

end State

variable (Vm Service) in
/-- What a thread does. -/
abbrev Action (α : Type) := Program (Mutex Vm Service) (State Vm Service) α

/-! ## `cBlockQueue` -/

section Queue

variable (queue : QueueOf Vm Service)

/-- `cBlockQueue::put`. -/
def put (mail : Mail) : Action Vm Service Unit :=
  withLock (.queue queue) (write fun state =>
    state.setQueue ((state.queue queue).put mail) queue)

/-- `cBlockQueue::size`. -/
def size : Action Vm Service Nat :=
  withLock (.queue queue) (read fun state => (state.queue queue).size)

/-- The front of the queue is removed; from an empty one nothing is. -/
def popFront : Action Vm Service Mail :=
  modifyGet fun state =>
    ((state.queue queue).takeNonBlock.1, state.setQueue (state.queue queue).takeNonBlock.2 queue)

/-- `cBlockQueue::takeNonBlock`. -/
def takeNonBlock : Action Vm Service Mail := withLock (.queue queue) (popFront queue)

/-- `cBlockQueue::take`. A caller that has to wait would give up the mutex until it is woken. -/
def take : Action Vm Service Mail :=
  withLock (.queue queue)
    (.await (fun state => (state.queue queue).size ≠ 0) (popFront queue))

end Queue

/-! ## `cVmContext` -/

/-- `uv_async_send`, and what the loop does with the flag before it runs the callback. -/
def setAsync (vm : Vm) (asyncPending : Bool) : Action Vm Service Unit :=
  withLock (.async vm) (write fun state => state.setAsync vm asyncPending)

/-- `cVmContext::pushMsg`. -/
def pushMsg (vm : Vm) (mail : Mail) : Action Vm Service Unit :=
  withLock (.context vm) do
    write fun state => state.setIdle vm false
    put (.own vm) mail
    setAsync vm true

/-- `cVmContext::isIdle`. -/
def isIdle (vm : Vm) : Action Vm Service Bool :=
  withLock (.context vm) (read fun state => (state.context vm).isIdle)

/-- `cVmContext::newSession`. -/
def newSession (vm : Vm) : Action Vm Service Int32 :=
  withLock (.context vm) (modifyGet fun state =>
    match Session.newSession (state.sessionId vm) with
    | (session, sessionId) =>
        (session, state.setSession vm sessionId))

section Calls

variable (population : Population Vm Service)

/-- `cVmContext::popMsg`. -/
def popMsg (vm : Vm) : Action Vm Service Mail :=
  withLock (.context vm) do
    if (← size (.own vm)) ≠ 0 then
      write fun state => state.setIdle vm false
      take (.own vm)
    else
      let mail ← takeNonBlock (.shared (population.service vm))
      if mail.msg.data ≠ none then
        write fun state => state.setIdle vm false
        return mail
      else
        write fun state => state.setIdle vm true
        return default

/-! ## `cServiceInfo` -/

/-- The loop of `pushMsg2FreeVm`, which ends at the first idle VM. -/
def findIdle : List Vm → Action Vm Service (Option Vm)
  | [] => return none
  | vm :: rest => do
      if ← isIdle vm then
        return some vm
      else
        findIdle rest

/-- `cServiceInfo::pushMsg2FreeVm`. -/
def pushMsg2FreeVm (info : Service) (mail : Mail) : Action Vm Service Unit :=
  withLock (.service info) do
    match ← findIdle (population.map_ info) with
    | some pIdle => pushMsg pIdle mail
    | none => put (.shared info) mail

/-! ## `cThisVM` -/

/-- A message of a VM. -/
def message (self : Vm) (session : Int32) (data : Option (List UInt8)) (sz : UInt64) : Mail where
  msg :=
    { sourceServiceName := population.serviceName (population.service self)
      sourceVm := population.handle_ self
      session := session
      data := data
      sz := sz }

/-- `ContextMgr::instance().fetch(id)`. All VMs of the population are alive. -/
def fetchContext (id : Int32) : Action Vm Service (Option Vm) :=
  withLock .contextMgr (pure (population.contextMgr.fetch (fun _ => true) id))

/-- `ServiceMgr::instance().fetch(name)`. -/
def fetchService (name : String) : Action Vm Service (Option Service) :=
  withLock .serviceMgr (pure (population.serviceMgr.fetch (fun _ => true) name))

/-- `sendByVmId`: what it returns to the script. -/
def sendByVmId (self : Vm) (targetVmId : Int64) (charMsg : Option (List UInt8)) (size : Int64) :
    Action Vm Service Bool := do
  let session ← newSession self
  let msg := message population self session charMsg
    (size.toUInt64 ||| Address.MSG_TYPE_LUA <<< Address.MESSAGE_TYPE_SHIFT)
  -- `static_cast<int>`
  match ← fetchContext population targetVmId.toInt32 with
  | some targetVmContext => do
      pushMsg targetVmContext msg
      return true
  | none => return false

/-- `sendByServiceName`: what it returns to the script. -/
def sendByServiceName (self : Vm) (serviceName : String) (charMsg : Option (List UInt8))
    (size : Int64) : Action Vm Service Bool := do
  let session ← newSession self
  let msg := message population self session charMsg
    (size.toUInt64 ||| Address.MSG_TYPE_LUA <<< Address.MESSAGE_TYPE_SHIFT)
  match ← fetchService population serviceName with
  | some service => do
      pushMsg2FreeVm population service msg
      return true
  | none => return false

def MSG_TYPE_TEXT : UInt64 := 2

/-- The loop of `iAmReady` over the entries of the manager, which holds no mutex: every VM of
another service is sent the report. -/
def report (self : Vm) (msg : Mail) : List Vm → Action Vm Service Unit
  | [] => return ()
  | obj :: rest => do
      if population.serviceName (population.service self) =
          population.serviceName (population.service obj) then
        report self msg rest
      else
        pushMsg obj msg
        report self msg rest

/-- `iAmReady` with the report that it has packed. -/
def iAmReady (self : Vm) (pBuff : Option (List UInt8)) (len : Int64) : Action Vm Service Unit :=
  report population self
    (message population self 0 pBuff
      (len.toUInt64 ||| MSG_TYPE_TEXT <<< Address.MESSAGE_TYPE_SHIFT))
    population.contextMgr.map_.values

variable (Vm) in
/-- A call of a script on its `cThisVM`, or the loop of a VM that runs the async callback. -/
inductive Call
  | sendByVmId (self : Vm) (targetVmId : Int64) (charMsg : Option (List UInt8)) (size : Int64)
  | sendByServiceName (self : Vm) (serviceName : String) (charMsg : Option (List UInt8))
      (size : Int64)
  | iAmReady (self : Vm) (pBuff : Option (List UInt8)) (len : Int64)
  | getInternalMsgNonBlock (self : Vm)
  | runAsync (vm : Vm)

/-- What a call returns: whether the addressee was found, or a message, or nothing. -/
inductive Result
  | sent (found : Bool)
  | popped (mail : Mail)
  | done
  deriving DecidableEq

/-- What the thread of a call does. -/
def body : Call Vm → Action Vm Service Result
  | .sendByVmId self targetVmId charMsg size =>
      .sent <$> sendByVmId population self targetVmId charMsg size
  | .sendByServiceName self serviceName charMsg size =>
      .sent <$> sendByServiceName population self serviceName charMsg size
  | .iAmReady self pBuff len => (fun _ => .done) <$> iAmReady population self pBuff len
  | .getInternalMsgNonBlock self => .popped <$> popMsg population self
  | .runAsync vm => (fun _ => .done) <$> setAsync vm false

end Calls

/-! ## What the mutexes protect -/

/-- What `mutex_` of a VM protects: the VM's queue too, which is used under it alone. -/
structure Core where
  bIdle : Bool
  msgQueue_ : BlockQueue Mail
  sessionId : Int32

def State.core (state : State Vm Service) (vm : Vm) : Core where
  bIdle := (state.context vm).bIdle
  msgQueue_ := (state.context vm).msgQueue_
  sessionId := state.sessionId vm

/-- Two states do not differ in what a mutex protects. -/
def Same (state other : State Vm Service) : Mutex Vm Service → Prop
  | .context vm => state.core vm = other.core vm
  | .queue (.shared info) => state.msgQueue info = other.msgQueue info
  | .async vm => (state.context vm).asyncPending = (other.context vm).asyncPending
  | _ => True

omit [DecidableEq Vm] [DecidableEq Service] in
theorem same_equivalence (mutex : Mutex Vm Service) :
    Equivalence fun state other => Same state other mutex := by
  constructor
  · intro state
    unfold Same
    split <;> trivial
  · intro state other same
    unfold Same at *
    split at same
    · exact same.symm
    · exact same.symm
    · exact same.symm
    · trivial
  · intro state other third first second
    unfold Same at *
    split at first
    · exact first.trans second
    · exact first.trans second
    · exact first.trans second
    · trivial

/-- A manager, a service, a VM, a queue or a flag: the order of acquisition. -/
def rank : Mutex Vm Service → Nat
  | .serviceMgr => 0
  | .contextMgr => 0
  | .service _ => 1
  | .context _ => 2
  | .queue _ => 3
  | .async _ => 3

variable (Vm Service) in
/-- The order of the mutexes and what they protect. -/
def discipline : Locks.Discipline (Mutex Vm Service) (State Vm Service) where
  rank := rank
  bound := 4
  rank_lt := by
    intro mutex
    unfold rank
    split <;> omega
  protects := fun mutex => ⟨fun state other => Same state other mutex, same_equivalence mutex⟩

omit [DecidableEq Vm] [DecidableEq Service] in
/-- Together the mutexes protect everything. -/
theorem whole (state other : State Vm Service)
    (same : ∀ mutex, ((discipline Vm Service).protects mutex).r state other) : state = other := by
  have contexts : state.context = other.context := by
    funext vm
    have core : state.core vm = other.core vm := same (.context vm)
    have asyncPending : (state.context vm).asyncPending = (other.context vm).asyncPending :=
      same (.async vm)
    have bIdle : (state.context vm).bIdle = (other.context vm).bIdle := congrArg Core.bIdle core
    have msgQueue_ : (state.context vm).msgQueue_ = (other.context vm).msgQueue_ :=
      congrArg Core.msgQueue_ core
    calc state.context vm
        = ⟨(state.context vm).bIdle, (state.context vm).msgQueue_,
            (state.context vm).asyncPending⟩ := rfl
      _ = other.context vm := by rw [bIdle, msgQueue_, asyncPending]
  have sessions : state.sessionId = other.sessionId :=
    funext fun vm => congrArg Core.sessionId (same (.context vm))
  have queues : state.msgQueue = other.msgQueue :=
    funext fun info => same (.queue (.shared info))
  calc state = ⟨state.context, state.sessionId, state.msgQueue⟩ := rfl
    _ = other := by rw [contexts, sessions, queues]

section Accesses

variable {held : List (Mutex Vm Service)} {vm another : Vm} (function : VmContext → VmContext)

omit [DecidableEq Service] in
theorem core_modifyContext (vm : Vm) (state : State Vm Service) :
    (state.modifyContext vm function).core vm =
      ⟨(function (state.context vm)).bIdle, (function (state.context vm)).msgQueue_,
        state.sessionId vm⟩ := by
  simp only [State.core, State.modifyContext, Function.update_self]

omit [DecidableEq Service] in
theorem core_modifyContext_of_ne (different : another ≠ vm) (state : State Vm Service) :
    (state.modifyContext vm function).core another = state.core another := by
  simp only [State.core, State.modifyContext, Function.update_of_ne different]

omit [DecidableEq Service] in
theorem core_setIdle (state : State Vm Service) (vm : Vm) (bIdle : Bool) :
    (state.setIdle vm bIdle).core vm = { state.core vm with bIdle := bIdle } :=
  core_modifyContext _ vm state

omit [DecidableEq Service] in
theorem core_setAsync (state : State Vm Service) (vm : Vm) (asyncPending : Bool) :
    (state.setAsync vm asyncPending).core vm = state.core vm :=
  core_modifyContext _ vm state

theorem core_setQueue (state : State Vm Service) (vm : Vm) (contents : BlockQueue Mail) :
    (state.setQueue contents (.own vm)).core vm =
      { state.core vm with msgQueue_ := contents } :=
  core_modifyContext (fun context => { context with msgQueue_ := contents }) vm state

omit [DecidableEq Service] in
theorem asyncPending_modifyContext_of_ne (different : another ≠ vm) (state : State Vm Service) :
    ((state.modifyContext vm function).context another).asyncPending =
      (state.context another).asyncPending := by
  simp only [State.modifyContext, Function.update_of_ne different]

omit [DecidableEq Service] in
theorem respects_modifyContext (vm : Vm)
    (own : ∀ state other : State Vm Service, state.core vm = other.core vm →
      (state.modifyContext vm function).core vm = (other.modifyContext vm function).core vm)
    (async : ∀ context other, context.asyncPending = other.asyncPending →
      (function context).asyncPending = (function other).asyncPending) :
    (discipline Vm Service).Respects fun state => state.modifyContext vm function := by
  intro mutex state other same
  cases mutex with
  | context another =>
      change (state.modifyContext vm function).core another =
        (other.modifyContext vm function).core another
      by_cases itself : another = vm
      · subst itself
        exact own state other same
      · rw [core_modifyContext_of_ne function itself, core_modifyContext_of_ne function itself]
        exact same
  | async another =>
      change ((state.modifyContext vm function).context another).asyncPending =
        ((other.modifyContext vm function).context another).asyncPending
      by_cases itself : another = vm
      · subst itself
        simp only [State.modifyContext, Function.update_self]
        exact async _ _ same
      · rw [asyncPending_modifyContext_of_ne function itself,
          asyncPending_modifyContext_of_ne function itself]
        exact same
  | queue queue =>
      cases queue with
      | own _ => trivial
      | shared info => exact same
  | _ => trivial

omit [DecidableEq Service] in
/-- Changing a context changes nothing but what the mutex of the VM and its flag protect. -/
theorem changes_of_modifyContext
    (core : Mutex.context vm ∈ held ∨ ∀ context, (function context).bIdle = context.bIdle ∧
      (function context).msgQueue_ = context.msgQueue_)
    (async : Mutex.async vm ∈ held ∨ ∀ context,
      (function context).asyncPending = context.asyncPending) :
    ∀ state mutex, mutex ∉ held →
      ((discipline Vm Service).protects mutex).r state (state.modifyContext vm function) := by
  intro state mutex outside
  cases mutex with
  | context another =>
      change state.core another = (state.modifyContext vm function).core another
      by_cases itself : another = vm
      · subst itself
        obtain ⟨bIdle, msgQueue_⟩ := core.resolve_left outside (state.context another)
        rw [core_modifyContext, bIdle, msgQueue_]
        rfl
      · exact (core_modifyContext_of_ne function itself state).symm
  | async another =>
      change _ = ((state.modifyContext vm function).context another).asyncPending
      by_cases itself : another = vm
      · subst itself
        simp only [State.modifyContext, Function.update_self]
        exact (async.resolve_left outside _).symm
      · exact (asyncPending_modifyContext_of_ne function itself state).symm
  | queue queue =>
      cases queue with
      | own _ => trivial
      | shared info => exact rfl
  | _ => trivial

omit [DecidableEq Service] in
theorem respects_setSession (change : Int32 → Int32) : (discipline Vm Service).Respects
    fun state => state.setSession vm (change (state.sessionId vm)) := by
  intro mutex state other same
  cases mutex with
  | context another =>
      change State.core _ another = State.core _ another
      have sessionId : state.sessionId another = other.sessionId another :=
        congrArg Core.sessionId same
      have bIdle : (state.context another).bIdle = (other.context another).bIdle :=
        congrArg Core.bIdle same
      have msgQueue_ : (state.context another).msgQueue_ = (other.context another).msgQueue_ :=
        congrArg Core.msgQueue_ same
      simp only [State.core, State.setSession, Function.update_apply, Core.mk.injEq]
      refine ⟨bIdle, msgQueue_, ?_⟩
      split
      · subst another
        rw [sessionId]
      · exact sessionId
  | async another => exact same
  | queue queue =>
      cases queue with
      | own _ => trivial
      | shared info => exact same
  | _ => trivial

omit [DecidableEq Service] in
theorem changes_of_setSession (change : Int32 → Int32) (member : Mutex.context vm ∈ held) :
    ∀ state mutex, mutex ∉ held → ((discipline Vm Service).protects mutex).r state
      (state.setSession vm (change (state.sessionId vm))) := by
  intro state mutex outside
  cases mutex with
  | context another =>
      have different : another ≠ vm := by
        rintro rfl
        exact outside member
      change State.core _ another = State.core _ another
      simp only [State.core, State.setSession, Function.update_of_ne different]
  | async another => exact rfl
  | queue queue =>
      cases queue with
      | own _ => trivial
      | shared info => exact rfl
  | _ => trivial

variable (change : BlockQueue Mail → BlockQueue Mail)

theorem respects_setQueue (queue : QueueOf Vm Service) :
    (discipline Vm Service).Respects fun state =>
      state.setQueue (change (state.queue queue)) queue := by
  cases queue with
  | own vm =>
      refine respects_modifyContext
        (fun context => { context with msgQueue_ := change context.msgQueue_ }) vm ?_ ?_
      · intro state other same
        have msgQueue_ : (state.context vm).msgQueue_ = (other.context vm).msgQueue_ :=
          congrArg Core.msgQueue_ same
        have bIdle : (state.context vm).bIdle = (other.context vm).bIdle :=
          congrArg Core.bIdle same
        have sessionId : state.sessionId vm = other.sessionId vm := congrArg Core.sessionId same
        rw [core_modifyContext, core_modifyContext, msgQueue_, bIdle, sessionId]
      · exact fun _ _ same => same
  | shared info =>
      intro mutex state other same
      cases mutex with
      | queue queue =>
          cases queue with
          | own _ => trivial
          | shared another =>
              change Function.update state.msgQueue info _ another =
                Function.update other.msgQueue info _ another
              simp only [Function.update_apply]
              split
              · subst another
                exact congrArg change same
              · exact same
      | context another => exact same
      | async another => exact same
      | _ => trivial

/-- The mutex under which a queue is used. -/
def QueueOf.mutex : QueueOf Vm Service → Mutex Vm Service
  | .own vm => .context vm
  | .shared info => .queue (.shared info)

theorem changes_of_queue {queue : QueueOf Vm Service} (member : queue.mutex ∈ held) :
    ∀ state mutex, mutex ∉ held → ((discipline Vm Service).protects mutex).r state
      (state.setQueue (change (state.queue queue)) queue) := by
  cases queue with
  | own vm =>
      exact changes_of_modifyContext
        (fun context => { context with msgQueue_ := change context.msgQueue_ }) (Or.inl member)
        (Or.inr fun _ => rfl)
  | shared info =>
      intro state mutex outside
      cases mutex with
      | queue queue =>
          cases queue with
          | own _ => trivial
          | shared another =>
              have different : another ≠ info := by
                rintro rfl
                exact outside member
              exact (Function.update_of_ne different ..).symm
      | context another => exact rfl
      | async another => exact rfl
      | _ => trivial

omit [DecidableEq Vm] [DecidableEq Service] in
/-- Who holds the mutex of a VM knows what it protects. -/
theorem core_of_agree (member : Mutex.context vm ∈ held) {state other : State Vm Service}
    (agree : (discipline Vm Service).Agree held state other) : state.core vm = other.core vm :=
  agree _ member

omit [DecidableEq Vm] [DecidableEq Service] in
/-- Who holds the mutex of a queue knows its contents. -/
theorem queue_of_agree {queue : QueueOf Vm Service} (member : queue.mutex ∈ held)
    {state other : State Vm Service} (agree : (discipline Vm Service).Agree held state other) :
    state.queue queue = other.queue queue := by
  have same := agree _ member
  cases queue with
  | own vm => exact congrArg Core.msgQueue_ same
  | shared info => exact same

end Accesses

/-! ## The calls are safe -/

section Safety

open Locks.Discipline

variable {held : List (Mutex Vm Service)} {queue : QueueOf Vm Service}

omit [DecidableEq Vm] [DecidableEq Service] in
/-- The mutex of a queue is acquired last. -/
theorem ranked_queue (ranked : ∀ before ∈ held, rank before < 3) :
    ∀ before ∈ held, (discipline Vm Service).rank before <
      (discipline Vm Service).rank (.queue queue) := ranked

omit [DecidableEq Vm] [DecidableEq Service] in
theorem mutex_mem (guarded : ∀ vm, queue = .own vm → Mutex.context vm ∈ held) :
    queue.mutex ∈ Mutex.queue queue :: held := by
  cases queue with
  | own vm => exact List.mem_cons_of_mem _ (guarded vm rfl)
  | shared info => exact List.mem_cons_self

omit [DecidableEq Vm] [DecidableEq Service] in
/-- The queue of a service is used without the mutex of a VM. -/
theorem shared_guarded (info : Service) (vm : Vm) (own : QueueOf.shared info = .own vm) :
    Mutex.context vm ∈ held := nomatch own

theorem keeps_put (ranked : ∀ before ∈ held, rank before < 3)
    (guarded : ∀ vm, queue = .own vm → Mutex.context vm ∈ held) (mail : Mail) :
    (discipline Vm Service).Keeps held (put queue mail) :=
  Keeps.withLock (ranked_queue ranked) <|
    keeps_write (respects_setQueue (fun contents => contents.put mail) queue)
      (changes_of_queue (fun contents => contents.put mail) (mutex_mem guarded))

theorem keeps_popFront (member : queue.mutex ∈ held) :
    (discipline Vm Service).Keeps held (popFront queue) := by
  refine keeps_modifyGet (respects_setQueue (fun contents => contents.takeNonBlock.2) queue)
    (changes_of_queue (fun contents => contents.takeNonBlock.2) member) ?_
  intro state other agree
  exact congrArg (fun queue => queue.takeNonBlock.1) (queue_of_agree member agree).symm

theorem keeps_takeNonBlock (ranked : ∀ before ∈ held, rank before < 3)
    (guarded : ∀ vm, queue = .own vm → Mutex.context vm ∈ held) :
    (discipline Vm Service).Keeps held (takeNonBlock queue) :=
  Keeps.withLock (ranked_queue ranked) (keeps_popFront (mutex_mem guarded))

omit [DecidableEq Service] in
theorem keeps_setAsync (ranked : ∀ before ∈ held, rank before < 3) (vm : Vm)
    (asyncPending : Bool) :
    (discipline Vm Service).Keeps held (setAsync vm asyncPending) := by
  refine Keeps.withLock ranked (keeps_write (respects_modifyContext _ vm ?_ fun _ _ _ => rfl)
    (changes_of_modifyContext _ (Or.inr fun _ => ⟨rfl, rfl⟩) (Or.inl List.mem_cons_self)))
  intro state other same
  rw [core_modifyContext, core_modifyContext]
  exact same

omit [DecidableEq Service] in
theorem respects_setIdle (vm : Vm) (bIdle : Bool) :
    (discipline Vm Service).Respects fun state => state.setIdle vm bIdle := by
  refine respects_modifyContext _ vm (fun state other same => ?_) fun _ _ same => same
  have msgQueue_ : (state.context vm).msgQueue_ = (other.context vm).msgQueue_ :=
    congrArg Core.msgQueue_ same
  have sessionId : state.sessionId vm = other.sessionId vm := congrArg Core.sessionId same
  rw [core_modifyContext, core_modifyContext, msgQueue_, sessionId]

omit [DecidableEq Service] in
theorem changes_of_setIdle {vm : Vm} (member : Mutex.context vm ∈ held) (bIdle : Bool) :
    ∀ state mutex, mutex ∉ held →
      ((discipline Vm Service).protects mutex).r state (state.setIdle vm bIdle) :=
  changes_of_modifyContext _ (Or.inl member) (Or.inr fun _ => rfl)

omit [DecidableEq Service] in
theorem keeps_setIdle {vm : Vm} (member : Mutex.context vm ∈ held) (bIdle : Bool) :
    (discipline Vm Service).Keeps held (write fun state => state.setIdle vm bIdle) :=
  keeps_write (respects_setIdle vm bIdle) (changes_of_setIdle member bIdle)

omit [DecidableEq Vm] [DecidableEq Service] in
/-- With a mutex of rank below 2 at most, the mutex of a VM is the next one. -/
theorem ranked_context (vm : Vm) (ranked : ∀ before ∈ held, rank before < 2) :
    ∀ before ∈ Mutex.context vm :: held, rank before < 3 := by
  intro before member
  rcases List.mem_cons.mp member with rfl | member
  · exact Nat.lt_succ_self 2
  · exact Nat.lt_succ_of_lt (ranked before member)

theorem keeps_pushMsg (ranked : ∀ before ∈ held, rank before < 2) (vm : Vm) (mail : Mail) :
    (discipline Vm Service).Keeps held (pushMsg vm mail) := by
  have above := ranked_context vm ranked
  refine Keeps.withLock ranked ((keeps_setIdle List.mem_cons_self false).bind fun _ => ?_)
  refine (keeps_put above ?_ mail).bind fun _ => keeps_setAsync above vm true
  rintro other ⟨⟩
  exact List.mem_cons_self

omit [DecidableEq Vm] [DecidableEq Service] in
theorem keeps_isIdle (ranked : ∀ before ∈ held, rank before < 2) (vm : Vm) :
    (discipline Vm Service).Keeps held (isIdle vm) := by
  refine Keeps.withLock ranked (keeps_read ?_)
  intro state other agree
  exact (congrArg Core.bIdle (agree _ List.mem_cons_self)).symm

omit [DecidableEq Service] in
theorem keeps_newSession (vm : Vm) : (discipline Vm Service).Keeps [] (newSession vm) := by
  refine Keeps.withLock (List.forall_mem_nil _) (keeps_modifyGet
    (respects_setSession fun sessionId => (Session.newSession sessionId).2)
    (changes_of_setSession (fun sessionId => (Session.newSession sessionId).2)
      List.mem_cons_self) ?_)
  intro state other agree
  have sessionId : state.sessionId vm = other.sessionId vm :=
    congrArg Core.sessionId (agree _ List.mem_cons_self)
  dsimp only
  rw [sessionId]

section Calls

variable (population : Population Vm Service)

/-- With an item in the own queue `take` does not wait. -/
theorem safe_take {vm : Vm} {state : State Vm Service}
    (filled : (state.queue (.own vm)).size ≠ 0) :
    (discipline Vm Service).Safe (fun _ after _ => after = [.context vm]) (take (.own vm))
      [.context vm] state := by
  have guarded : (QueueOf.own vm : QueueOf Vm Service).mutex ∈ [Mutex.context vm] :=
    List.mem_cons_self
  refine safe_withLock (ranked_context vm (List.forall_mem_nil _)) fun other agree => ?_
  refine safe_await (fun third later => ?_) ((keeps_popFront (List.mem_cons_of_mem _ guarded)
    other).weaken fun _ _ _ same => ⟨same, fun _ _ => rfl⟩)
  rw [← queue_of_agree (List.mem_cons_of_mem _ guarded) later, ← queue_of_agree guarded agree]
  exact decide_eq_true filled

/-- `popMsg` does not wait: nobody empties the own queue between `size` and `take`. -/
theorem keeps_popMsg (vm : Vm) : (discipline Vm Service).Keeps [] (popMsg population vm) := by
  have above : ∀ before ∈ [(Mutex.context vm : Mutex Vm Service)], rank before < 3 :=
    ranked_context vm (List.forall_mem_nil _)
  have guarded : (QueueOf.own vm : QueueOf Vm Service).mutex ∈ [Mutex.context vm] :=
    List.mem_cons_self
  refine Keeps.withLock (List.forall_mem_nil _) fun state =>
    safe_bind (safe_withLock above fun first _ => ?_)
  refine safe_read (fun _ _ agree => ?_) fun second seen => ⟨rfl, fun third later => ?_⟩
  · rw [queue_of_agree (List.mem_cons_of_mem _ guarded) agree]
  · -- what `size` has returned is still so, as the mutex of the VM is held
    have known : first.queue (.own vm) = third.queue (.own vm) :=
      (queue_of_agree (List.mem_cons_of_mem _ guarded) seen).trans (queue_of_agree guarded later)
    split
    · rename_i filled
      refine safe_bind (safe_write (changes_of_setIdle guarded false)
        (fun _ _ agree => (respects_setIdle vm false).agree agree)
        fun fourth after => safe_take ?_)
      have still : (third.setIdle vm false).queue (.own vm) = third.queue (.own vm) := by
        simp only [State.queue, State.setIdle, State.modifyContext, Function.update_self]
      rw [← queue_of_agree guarded after, still, ← known]
      exact filled
    · refine Keeps.bind (keeps_takeNonBlock above (shared_guarded _)) (fun mail => ?_) third
      split
      · exact (keeps_setIdle guarded false).bind fun _ => keeps_pure mail
      · exact (keeps_setIdle guarded true).bind fun _ => keeps_pure default

omit [DecidableEq Vm] [DecidableEq Service] in
theorem keeps_findIdle (ranked : ∀ before ∈ held, rank before < 2) (vms : List Vm) :
    (discipline Vm Service).Keeps held (findIdle vms) := by
  induction vms with
  | nil => exact keeps_pure none
  | cons vm rest ih =>
      refine (keeps_isIdle ranked vm).bind fun idle => ?_
      split
      · exact keeps_pure (some vm)
      · exact ih

theorem keeps_pushMsg2FreeVm (info : Service) (mail : Mail) :
    (discipline Vm Service).Keeps [] (pushMsg2FreeVm population info mail) := by
  have ranked : ∀ before ∈ [(Mutex.service info : Mutex Vm Service)], rank before < 2 := by
    intro before member
    rw [List.mem_singleton.mp member]
    exact Nat.lt_succ_self 1
  refine Keeps.withLock (List.forall_mem_nil _) ((keeps_findIdle ranked _).bind fun pIdle => ?_)
  split
  · exact keeps_pushMsg ranked _ mail
  · exact keeps_put (fun before member => Nat.lt_succ_of_lt (ranked before member))
      (shared_guarded info) mail

omit [DecidableEq Vm] [DecidableEq Service] in
theorem keeps_fetchContext (id : Int32) :
    (discipline Vm Service).Keeps [] (fetchContext population id) :=
  Keeps.withLock (List.forall_mem_nil _) (keeps_pure _)

omit [DecidableEq Vm] [DecidableEq Service] in
theorem keeps_fetchService (name : String) :
    (discipline Vm Service).Keeps [] (fetchService population name) :=
  Keeps.withLock (List.forall_mem_nil _) (keeps_pure _)

theorem keeps_sendByVmId (self : Vm) (targetVmId : Int64) (charMsg : Option (List UInt8))
    (size : Int64) :
    (discipline Vm Service).Keeps [] (sendByVmId population self targetVmId charMsg size) := by
  refine (keeps_newSession self).bind fun session => ?_
  refine (keeps_fetchContext population _).bind fun target => ?_
  split
  · exact (keeps_pushMsg (List.forall_mem_nil _) _ _).bind fun _ => keeps_pure true
  · exact keeps_pure false

theorem keeps_sendByServiceName (self : Vm) (serviceName : String)
    (charMsg : Option (List UInt8)) (size : Int64) : (discipline Vm Service).Keeps []
      (sendByServiceName population self serviceName charMsg size) := by
  refine (keeps_newSession self).bind fun session => ?_
  refine (keeps_fetchService population _).bind fun service => ?_
  split
  · exact (keeps_pushMsg2FreeVm population _ _).bind fun _ => keeps_pure true
  · exact keeps_pure false

theorem keeps_report (self : Vm) (msg : Mail) (vms : List Vm) :
    (discipline Vm Service).Keeps [] (report population self msg vms) := by
  induction vms with
  | nil => exact keeps_pure ()
  | cons obj rest ih =>
      unfold report
      split
      · exact ih
      · exact (keeps_pushMsg (List.forall_mem_nil _) obj msg).bind fun _ => ih

/-- Every call is safe. -/
theorem safeCall (call : Call Vm) :
    Locks.SafeCall (discipline Vm Service) (body population call) := by
  cases call with
  | sendByVmId self targetVmId charMsg size =>
      exact (keeps_sendByVmId population self targetVmId charMsg size).bind fun _ => keeps_pure _
  | sendByServiceName self serviceName charMsg size =>
      exact (keeps_sendByServiceName population self serviceName charMsg size).bind fun _ =>
        keeps_pure _
  | iAmReady self pBuff len => exact (keeps_report population self _ _).bind fun _ => keeps_pure _
  | getInternalMsgNonBlock self => exact (keeps_popMsg population self).bind fun _ => keeps_pure _
  | runAsync vm =>
      exact (keeps_setAsync (List.forall_mem_nil _) vm false).bind fun _ => keeps_pure _

/-- Any number of threads that call, from any state. -/
def machine (Thread : Type) [DecidableEq Thread] (init : State Vm Service) :
    Machine (Locks.World (Mutex Vm Service) (State Vm Service) Thread Result)
      (Locks.Event Thread (Call Vm)) :=
  Locks.machine (body population) .done init

/-- **Nobody waits forever, and there are no races.** In every run of any number of threads
`take` finds a message whenever `popMsg` calls it; all the calls in progress can be finished; and
the accesses that two threads are about to make commute, neither reading what the other one
changes. -/
theorem never_stuck {Thread : Type} [DecidableEq Thread] (init : State Vm Service)
    (events : List (Locks.Event Thread (Call Vm)))
    (world : Locks.World (Mutex Vm Service) (State Vm Service) Thread Result)
    (ran : (machine population Thread init).run events = some world) :
    (∀ thread condition rest, world.program thread = .await condition rest →
        condition world.state = true) ∧
      (∃ (schedule : List Thread) (last : _),
        (machine population Thread init).runFrom world (schedule.map .proceed) = some last ∧
          ∀ thread, (last.program thread).Finished) ∧
      ∀ first second, first ≠ second → ∀ update rest otherUpdate otherRest,
        world.program first = .access update rest →
        world.program second = .access otherUpdate otherRest →
          update (otherUpdate world.state) = otherUpdate (update world.state) ∧
            rest (otherUpdate world.state) = rest world.state ∧
            otherRest (update world.state) = otherRest world.state := by
  have guarded := Locks.guards_of_run (safeCall population) ran
  obtain ⟨held, guards⟩ := guarded
  refine ⟨fun thread condition rest => guards.awaited, ?_, fun first second different => ?_⟩
  · refine Locks.exists_finish (safeCall population)
      (events.filterMap Locks.Event.starter).nodup_dedup (fun thread outside => ?_) ⟨held, guards⟩
    exact Locks.finished_of_run ran thread fun member => outside (List.mem_dedup.mpr member)
  · exact fun _ _ _ _ => guards.commute whole different

end Calls

end Safety

/-! ## A run -/

/-- Two VMs of one service. -/
def twoVms : Population Bool Unit where
  service := fun _ => ()
  map_ := fun _ => [false, true]
  mem_map_ := by
    intro info vm
    cases vm <;> simp
  handle_ := fun vm => if vm then 2 else 1
  serviceName := fun _ => "echo"
  contextMgr := { map_ := .ofList [((1 : Int32), false), (2, true)] }
  serviceMgr := { map_ := .ofList [("echo", ())] }

/-- The first VM has a message. -/
def oneMessage : State Bool Unit where
  context := fun vm => if vm then {} else { msgQueue_ := { queue_ := [{}] } }
  sessionId := fun _ => 0
  msgQueue := fun _ => {}

/-- The first VM is about to take its message while another one is sent to it. -/
def sendWhilePopping : List (Locks.Event Bool (Call Bool)) :=
  [.start false (.getInternalMsgNonBlock false), .proceed false, .proceed false, .proceed false,
    .proceed false, .start true (.sendByVmId true 1 none 0), .proceed true, .proceed true,
    .proceed true, .proceed false, .proceed false]

theorem never_stuck_sendWhilePopping :
    ∃ world, (machine twoVms Bool oneMessage).run sendWhilePopping = some world ∧
      ∃ (schedule : List Bool) (last : _),
        (machine twoVms Bool oneMessage).runFrom world (schedule.map .proceed) = some last ∧
          ∀ thread, (last.program thread).Finished :=
  ⟨_, rfl, (never_stuck twoVms oneMessage sendWhilePopping _ rfl).2.1⟩

end Locking

end EasyLua
