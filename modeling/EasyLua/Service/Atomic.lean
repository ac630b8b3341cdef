import EasyLua.Foundation.Atomicity
import EasyLua.Service.Locking

/-!
# Dispatch in whole steps

`isIdle`, `pushMsg`, `popMsg` and `newSession` of a `cVmContext` and the operations of a queue
take effect as a whole: threads with all the mutexes do what threads do that make each of these
calls in a single step, and that only know the mutex of a service.
-/

namespace EasyLua

namespace Locking

namespace Atomic

open Locks (Program)
open Locks.Program (read write modifyGet withLock)

variable {Vm Service : Type} [DecidableEq Vm] [DecidableEq Service]

/-- `cBlockQueue::put` on the queue of a service. -/
def put (info : Service) (mail : Mail) : Action Vm Service Unit :=
  write fun state => state.setQueue ((state.msgQueue info).put mail) (.shared info)

def pushMsg (vm : Vm) (mail : Mail) : Action Vm Service Unit :=
  write fun state => state.modifyContext vm fun context => context.pushMsg mail

def isIdle (vm : Vm) : Action Vm Service Bool := read fun state => (state.context vm).isIdle

def newSession (vm : Vm) : Action Vm Service Int32 :=
  modifyGet fun state =>
    match Session.newSession (state.sessionId vm) with
    | (session, sessionId) => (session, state.setSession vm sessionId)

def runAsync (vm : Vm) : Action Vm Service Unit :=
  write fun state => state.setAsync vm false

variable (population : Population Vm Service)

/-- `popMsg` of a context and the queue of its service. -/
def popState (vm : Vm) (state : State Vm Service) : Mail × State Vm Service :=
  match (state.context vm).popMsg (state.msgQueue (population.service vm)) with
  | some (mail, context, queue) =>
      (mail, (state.modifyContext vm fun _ => context).setQueue queue
        (.shared (population.service vm)))
  | none => (default, state)

def popMsg (vm : Vm) : Action Vm Service Mail := modifyGet (popState population vm)

def findIdle : List Vm → Action Vm Service (Option Vm)
  | [] => return none
  | vm :: rest => do
      if ← isIdle vm then
        return some vm
      else
        findIdle rest

def pushMsg2FreeVm (info : Service) (mail : Mail) : Action Vm Service Unit :=
  withLock (.service info) do
    match ← findIdle (population.map_ info) with
    | some pIdle => pushMsg pIdle mail
    | none => put info mail

/-- The managers do not change, so that looking at them is no step. -/
def fetchContext (id : Int32) : Action Vm Service (Option Vm) :=
  pure (population.contextMgr.fetch (fun _ => true) id)

def fetchService (name : String) : Action Vm Service (Option Service) :=
  pure (population.serviceMgr.fetch (fun _ => true) name)

def sendByVmId (self : Vm) (targetVmId : Int64) (charMsg : Option (List UInt8)) (size : Int64) :
    Action Vm Service Bool := do
  let session ← newSession self
  let msg := message population self session charMsg
    (size.toUInt64 ||| Address.MSG_TYPE_LUA <<< Address.MESSAGE_TYPE_SHIFT)
  match ← fetchContext population targetVmId.toInt32 with
  | some targetVmContext => do
      pushMsg targetVmContext msg
      return true
  | none => return false

def sendByServiceName (self : Vm) (serviceName : String) (charMsg : Option (List UInt8))
    (size : Int64) : Action Vm Service Bool := do
  let session ← newSession self
  let msg := message population self session charMsg
    (size.toUInt64 ||| Address.MSG_TYPE_LUA <<< Address.MESSAGE_TYPE_SHIFT)
  match ← fetchService population serviceName with
  | some service => do
      pushMsg2FreeVm population service msg
      return true
  | none => return false

def report (self : Vm) (msg : Mail) : List Vm → Action Vm Service Unit
  | [] => return ()
  | obj :: rest => do
      if population.serviceName (population.service self) =
          population.serviceName (population.service obj) then
        report self msg rest
      else
        pushMsg obj msg
        report self msg rest

def iAmReady (self : Vm) (pBuff : Option (List UInt8)) (len : Int64) : Action Vm Service Unit :=
  report population self
    (message population self 0 pBuff
      (len.toUInt64 ||| MSG_TYPE_TEXT <<< Address.MESSAGE_TYPE_SHIFT))
    population.contextMgr.map_.values

/-- What a call does, in whole steps. -/
def body : Call Vm → Action Vm Service Result
  | .sendByVmId self targetVmId charMsg size =>
      .sent <$> sendByVmId population self targetVmId charMsg size
  | .sendByServiceName self serviceName charMsg size =>
      .sent <$> sendByServiceName population self serviceName charMsg size
  | .iAmReady self pBuff len => (fun _ => .done) <$> iAmReady population self pBuff len
  | .getInternalMsgNonBlock self => .popped <$> popMsg population self
  | .runAsync vm => (fun _ => .done) <$> runAsync vm

/-- Only the mutex of a service is left. -/
def kept : Mutex Vm Service → Bool
  | .service _ => true
  | _ => false

/-! ## Refinement -/

section Refinement

open Locks.Discipline

variable {held : List (Mutex Vm Service)}

omit [DecidableEq Vm] [DecidableEq Service] in
theorem implements_isIdle (vm : Vm) :
    (discipline Vm Service).Implements kept held (Locking.isIdle vm) (isIdle vm) := by
  refine implements_commit rfl (fun state mutex _ => ?_) (fun state mutex _ => ?_)
    fun state abstract same => ⟨congrArg Core.bIdle same, same⟩
  · exact ((discipline Vm Service).protects mutex).refl state
  · exact ((discipline Vm Service).protects mutex).refl state

omit [DecidableEq Service] in
theorem implements_newSession (vm : Vm) :
    (discipline Vm Service).Implements kept held (Locking.newSession vm) (newSession vm) := by
  let last := fun sessionId => (Session.newSession sessionId).2
  have changes := changes_of_setSession last (List.mem_cons_self : Mutex.context vm ∈ _ :: held)
  refine implements_commit rfl changes changes fun state abstract same => ⟨?_, ?_⟩
  · have sessionId : state.sessionId vm = abstract.sessionId vm := congrArg Core.sessionId same
    dsimp only
    rw [sessionId]
  · exact respects_setSession last (.context vm) state abstract same

omit [DecidableEq Service] in
theorem implements_runAsync (vm : Vm) :
    (discipline Vm Service).Implements kept held (setAsync vm false) (runAsync vm) := by
  have changes := changes_of_modifyContext (fun context => { context with asyncPending := false })
    (Or.inr fun _ => ⟨rfl, rfl⟩) (Or.inl (List.mem_cons_self : Mutex.async vm ∈ _ :: held))
  refine implements_commit rfl changes changes fun state abstract _ => ⟨rfl, ?_⟩
  change ((state.setAsync vm false).context vm).asyncPending =
    ((abstract.setAsync vm false).context vm).asyncPending
  simp only [State.setAsync, State.modifyContext, Function.update_self]

theorem implements_put (info : Service) (mail : Mail) :
    (discipline Vm Service).Implements kept held (Locking.put (.shared info) mail)
      (put info mail) := by
  have changes := changes_of_queue (fun contents => contents.put mail)
    (List.mem_cons_self : (QueueOf.shared info).mutex ∈ _ :: held)
  refine implements_commit rfl changes changes fun state abstract same => ⟨rfl, ?_⟩
  exact respects_setQueue (fun contents => contents.put mail) (.shared info)
    (.queue (.shared info)) state abstract same

/-- The own queue is used without the coarser program seeing it. -/
theorem refines_put_own {vm : Vm} (member : Mutex.context vm ∈ held) (mail : Mail)
    {state abstract : State Vm Service} {coarse : Action Vm Service Unit}
    {post : Unit → Action Vm Service Unit → List (Mutex Vm Service) → State Vm Service →
      State Vm Service → Prop}
    (post_ : ∀ other another, (discipline Vm Service).Agree held
      (state.setQueue ((state.queue (.own vm)).put mail) (.own vm)) other →
      (discipline Vm Service).Agree held abstract another → post () coarse held other another) :
    (discipline Vm Service).Refines kept post (Locking.put (.own vm) mail) coarse held state
      abstract := by
  have respects : (discipline Vm Service).Respects fun state =>
      state.setQueue ((state.queue (.own vm)).put mail) (.own vm) :=
    respects_setQueue (fun contents => contents.put mail) (.own vm)
  refine refines_withLock rfl fun other another agree agrees _ => ?_
  refine refines_write respects (changes_of_queue (fun contents => contents.put mail)
    (mutex_mem ?_)) fun third fourth later lasts => ⟨rfl, trivial, fun fifth sixth more mores => ?_⟩
  · rintro other ⟨⟩
    exact member
  · exact post_ fifth sixth ((respects.agree agree).trans (later.tail.trans more))
      (agrees.trans (lasts.tail.trans mores))

theorem implements_pushMsg (vm : Vm) (mail : Mail) :
    (discipline Vm Service).Implements kept held (Locking.pushMsg vm mail) (pushMsg vm mail) := by
  have context : (Mutex.context vm : Mutex Vm Service) ∈ .context vm :: held := List.mem_cons_self
  have inner : (Mutex.context vm : Mutex Vm Service) ∈ .async vm :: .context vm :: held :=
    List.mem_cons_of_mem _ context
  have async : (Mutex.async vm : Mutex Vm Service) ∈ .async vm :: .context vm :: held :=
    List.mem_cons_self
  intro state abstract
  refine refines_withLock rfl fun first second _ _ same => ?_
  refine refines_bind (refines_write (respects_setIdle vm false) (changes_of_setIdle context false)
    fun third fourth idle unseen => ?_)
  have busy : third.core vm = { fourth.core vm with bIdle := false } := by
    rw [← core_of_agree context idle, core_setIdle, ← core_of_agree context unseen]
    exact congrArg (fun core : Core => { core with bIdle := false }) same
  refine refines_bind (refines_put_own context mail fun fifth sixth put_ unseen => ?_)
  have queued : fifth.core vm = { sixth.core vm with
      bIdle := false
      msgQueue_ := (sixth.core vm).msgQueue_.put mail } := by
    have contents : third.queue (.own vm) = (fourth.core vm).msgQueue_ :=
      congrArg Core.msgQueue_ busy
    rw [← core_of_agree context put_, core_setQueue, contents, busy, core_of_agree context unseen]
  refine refines_withLock rfl fun seventh eighth later lasts _ => ?_
  refine refines_commit (changes_of_modifyContext _ (Or.inr fun _ => ⟨rfl, rfl⟩) (Or.inl async))
    fun ninth tenth nines tens => ⟨?_, ?_⟩
  · exact changes_of_modifyContext _ (Or.inl inner) (Or.inl async) tenth
  · -- now the coarser program does what has been done so far
    have caught : Same (ninth.setAsync vm true)
        (tenth.modifyContext vm fun context => context.pushMsg mail) (.context vm) := by
      change State.core _ vm = State.core _ vm
      rw [core_setAsync, ← core_of_agree inner nines, ← core_of_agree context later, queued,
        core_of_agree context lasts, core_of_agree inner tens]
      exact (core_modifyContext (fun context => context.pushMsg mail) vm tenth).symm
    have flag : Same (ninth.setAsync vm true)
        (tenth.modifyContext vm fun context => context.pushMsg mail) (.async vm) := by
      simp only [Same, State.setAsync, State.modifyContext, Function.update_self,
        VmContext.pushMsg]
    intro last final agree agrees
    refine ⟨rfl, Agree.carry async flag agree agrees, fun other another more mores => ⟨rfl, ?_, ?_⟩⟩
    · exact Agree.carry context (Agree.carry inner caught agree agrees) more mores
    · exact fun _ _ _ _ => ⟨rfl, rfl⟩

/-! ### `popMsg` -/

section PopMsg

variable (population : Population Vm Service) {vm : Vm} {state abstract : State Vm Service}

/-- With a message in the own queue it is removed from there. -/
theorem popState_own (filled : (state.core vm).msgQueue_.size ≠ 0) :
    popState population vm state =
      ((state.core vm).msgQueue_.takeNonBlock.1, state.modifyContext vm fun context =>
        { context with bIdle := false, msgQueue_ := context.msgQueue_.takeNonBlock.2 }) := by
  have nonempty : (state.context vm).msgQueue_.queue_ ≠ [] := List.ne_nil_of_length_pos
    (Nat.pos_of_ne_zero filled)
  obtain ⟨mail, rest, own⟩ := List.exists_cons_of_ne_nil nonempty
  have taken : (state.context vm).msgQueue_.takeNonBlock = (mail, { queue_ := rest }) := by
    unfold BlockQueue.takeNonBlock
    rw [own]
  simp only [popState, VmContext.popMsg_own _ _ mail rest own, State.core, State.modifyContext,
    State.setQueue, taken, Function.update_eq_self]

/-- With an empty own queue the front of the service's queue is removed. -/
theorem popState_shared (empty : (state.core vm).msgQueue_.size = 0) :
    popState population vm state =
      match (state.msgQueue (population.service vm)).takeNonBlock with
      | (mail, rest) =>
          (if mail.msg.data ≠ none then mail else default,
            (state.setIdle vm (mail.msg.data = none)).setQueue rest
              (.shared (population.service vm))) := by
  have none_ : (state.context vm).msgQueue_.size = 0 := empty
  unfold popState VmContext.popMsg
  simp only [none_, ne_eq, not_true_eq_false, ↓reduceIte]
  by_cases null : (state.msgQueue (population.service vm)).takeNonBlock.1.msg.data = none
  · simp only [null, not_true_eq_false, ↓reduceIte, decide_true]
    rfl
  · simp only [null, not_false_eq_true, ↓reduceIte, decide_false]
    rfl

omit [DecidableEq Vm] [DecidableEq Service] in
/-- `size` of the own queue. -/
theorem refines_size {β : Type} (member : Mutex.context vm ∈ held) {coarse : Action Vm Service β}
    {post : Nat → Action Vm Service β → List (Mutex Vm Service) → State Vm Service →
      State Vm Service → Prop}
    (post_ : ∀ other another, (discipline Vm Service).Agree held state other →
      (discipline Vm Service).Agree held abstract another →
      post (state.core vm).msgQueue_.size coarse held other another) :
    (discipline Vm Service).Refines kept post (size (.own vm)) coarse held state abstract := by
  refine refines_withLock rfl fun first second agree agrees _ => ?_
  refine refines_silent (fun state mutex _ => ((discipline Vm Service).protects mutex).refl state)
    fun third fourth later lasts => ?_
  intro fifth sixth more mores
  refine ⟨rfl, trivial, fun seventh eighth most mosts => ?_⟩
  have same : state.core vm = third.core vm :=
    (core_of_agree member agree).trans (core_of_agree member later.tail)
  have size : (third.queue (.own vm)).size = (state.core vm).msgQueue_.size := by
    rw [same]
    rfl
  change post (third.queue (.own vm)).size coarse held seventh eighth
  rw [size]
  exact post_ seventh eighth (agree.trans (later.tail.trans (more.tail.trans most)))
    (agrees.trans (lasts.tail.trans (mores.tail.trans mosts)))

/-- `take` removes what the coarser program removes, which makes the VM busy with it. -/
theorem refines_take (filled : (state.core vm).msgQueue_.size ≠ 0)
    (idle : state.core vm = { abstract.core vm with bIdle := false }) :
    (discipline Vm Service).Refines kept
      (fun result coarse => (discipline Vm Service).Restored (.context vm) held
        (Answered held result coarse))
      (take (.own vm)) (popMsg population vm) (.context vm :: held) state abstract := by
  have context : (Mutex.context vm : Mutex Vm Service) ∈ .context vm :: held := List.mem_cons_self
  have inner : (Mutex.context vm : Mutex Vm Service) ∈
      .queue (.own vm) :: .context vm :: held := List.mem_cons_of_mem _ context
  have guarded : (QueueOf.own vm : QueueOf Vm Service).mutex ∈
      .queue (.own vm) :: .context vm :: held := inner
  refine refines_withLock rfl fun first second agree agrees _ => ?_
  refine refines_await (fun third later => ?_) (refines_commit
    (changes_of_queue (fun contents => contents.takeNonBlock.2) guarded) fun third fourth later
      lasts => ?_)
  · have same : state.core vm = third.core vm :=
      (core_of_agree context agree).trans (core_of_agree inner later)
    rw [same] at filled
    exact decide_eq_true filled
  · have mine : state.core vm = third.core vm :=
      (core_of_agree context agree).trans (core_of_agree inner later)
    have its : abstract.core vm = fourth.core vm :=
      (core_of_agree context agrees).trans (core_of_agree inner lasts)
    have behind : third.core vm = { fourth.core vm with bIdle := false } := by
      rw [← mine, ← its, idle]
    have contents : third.queue (.own vm) = (fourth.core vm).msgQueue_ :=
      congrArg Core.msgQueue_ behind
    have there : (fourth.core vm).msgQueue_.size ≠ 0 := by
      rw [mine] at filled
      rw [← contents]
      exact filled
    have effect := popState_own population there
    have caught : Same (third.setQueue (third.queue (.own vm)).takeNonBlock.2 (.own vm))
        (popState population vm fourth).2 (.context vm) := by
      change State.core _ vm = State.core _ vm
      rw [effect, core_setQueue, behind, contents, core_modifyContext]
      rfl
    refine ⟨?_, fun fifth sixth more mores => ⟨rfl, trivial, fun seventh eighth most mosts => ?_⟩⟩
    · rw [effect]
      exact changes_of_modifyContext (fun context =>
        { context with bIdle := false, msgQueue_ := context.msgQueue_.takeNonBlock.2 })
        (Or.inl inner) (Or.inr fun _ => rfl) fourth
    · refine ⟨rfl, Agree.carry context (Agree.carry inner caught more mores) most mosts, ?_⟩
      refine fun _ _ _ _ => ⟨?_, rfl⟩
      dsimp only
      rw [effect, contents]

omit [DecidableEq Service] in
/-- The flag is set last. -/
theorem refines_setIdle {bIdle : Bool} (mail : Mail)
    (known : abstract.core vm = { state.core vm with bIdle := bIdle }) :
    (discipline Vm Service).Refines kept
      (fun result coarse => (discipline Vm Service).Restored (.context vm) held
        (Answered held result coarse))
      (do
        write fun state => state.setIdle vm bIdle
        return mail)
      (.done mail) (.context vm :: held) state abstract := by
  have context : (Mutex.context vm : Mutex Vm Service) ∈ .context vm :: held := List.mem_cons_self
  refine refines_bind (refines_write (respects_setIdle vm bIdle) (changes_of_setIdle context bIdle)
    fun first second agree agrees => refines_pure fun third fourth later lasts => ?_)
  have same : Same (state.setIdle vm bIdle) abstract (.context vm) :=
    (core_setIdle state vm bIdle).trans known.symm
  refine ⟨rfl, ?_, fun _ _ _ _ => ⟨rfl, rfl⟩⟩
  exact Agree.carry context same (agree.trans later) (agrees.trans lasts)

/-- `takeNonBlock` removes what the coarser program removes, and then the flag is set. -/
theorem refines_takeNonBlock (empty : (state.core vm).msgQueue_.size = 0)
    (same : state.core vm = abstract.core vm) :
    (discipline Vm Service).Refines kept
      (fun result coarse => (discipline Vm Service).Restored (.context vm) held
        (Answered held result coarse))
      (do
        let mail ← takeNonBlock (.shared (population.service vm))
        if mail.msg.data ≠ none then
          write fun state => state.setIdle vm false
          return mail
        else
          write fun state => state.setIdle vm true
          return default)
      (popMsg population vm) (.context vm :: held) state abstract := by
  have context : (Mutex.context vm : Mutex Vm Service) ∈ .context vm :: held := List.mem_cons_self
  have inner : (Mutex.context vm : Mutex Vm Service) ∈
      .queue (.shared (population.service vm)) :: .context vm :: held :=
    List.mem_cons_of_mem _ context
  have guarded : (QueueOf.shared (population.service vm) : QueueOf Vm Service).mutex ∈
      .queue (.shared (population.service vm)) :: .context vm :: held := List.mem_cons_self
  refine refines_bind (refines_withLock rfl fun first second agree agrees shared => ?_)
  refine refines_commit (changes_of_queue (fun contents => contents.takeNonBlock.2) guarded)
    fun third fourth later lasts => ?_
  have mine : state.core vm = third.core vm :=
    (core_of_agree context agree).trans (core_of_agree inner later)
  have its : abstract.core vm = fourth.core vm :=
    (core_of_agree context agrees).trans (core_of_agree inner lasts)
  have there : (fourth.core vm).msgQueue_.size = 0 := by
    rw [← its, ← same]
    exact empty
  have contents : third.msgQueue (population.service vm) =
      fourth.msgQueue (population.service vm) := Agree.carry guarded shared later lasts
  have effect := popState_shared population there
  rw [← contents] at effect
  dsimp only [State.queue]
  generalize (third.msgQueue (population.service vm)).takeNonBlock = front at *
  obtain ⟨mail, rest⟩ := front
  dsimp only at effect
  refine ⟨fun mutex outside => ?_, fun fifth sixth more mores =>
    ⟨rfl, Agree.carry guarded ?_ more mores, fun seventh eighth most mosts => ?_⟩⟩
  · rw [effect]
    exact ((discipline Vm Service).protects mutex).trans
      (changes_of_setIdle inner _ fourth mutex outside)
      (changes_of_queue (fun _ => rest) guarded _ mutex outside)
  · rw [effect]
    change Function.update third.msgQueue _ rest _ = Function.update fourth.msgQueue _ rest _
    rw [Function.update_self, Function.update_self]
  · -- the coarser program has set the flag already
    have concrete : third.core vm = seventh.core vm :=
      (core_of_agree inner more).trans (core_of_agree context most)
    have known : eighth.core vm =
        { seventh.core vm with bIdle := decide (mail.msg.data = none) } := by
      rw [← core_of_agree context mosts, ← core_of_agree inner mores, effect, ← concrete, ← mine,
        same, its]
      exact core_setIdle fourth vm _
    dsimp only
    rw [effect]
    split
    · rename_i payload
      rw [decide_eq_false payload] at known
      exact refines_setIdle mail known
    · rename_i payload
      rw [decide_eq_true (not_not.mp payload)] at known
      exact refines_setIdle default known

theorem implements_popMsg (vm : Vm) : (discipline Vm Service).Implements kept held
    (Locking.popMsg population vm) (popMsg population vm) := by
  have context : (Mutex.context vm : Mutex Vm Service) ∈ .context vm :: held := List.mem_cons_self
  intro state abstract
  refine refines_withLock rfl fun first second _ _ same => ?_
  refine refines_bind (refines_size context fun third fourth agree agrees => ?_)
  have mine : first.core vm = third.core vm := core_of_agree context agree
  have its : second.core vm = fourth.core vm := core_of_agree context agrees
  have equal : third.core vm = fourth.core vm := mine.symm.trans (Eq.trans same its)
  split
  · rename_i filled
    refine refines_bind (refines_write (respects_setIdle vm false) (changes_of_setIdle context false)
      fun fifth sixth idle unseen => ?_)
    have busy : fifth.core vm = { sixth.core vm with bIdle := false } := by
      rw [← core_of_agree context idle, core_setIdle, equal, core_of_agree context unseen]
    refine refines_take population ?_ busy
    rw [← core_of_agree context idle, core_setIdle, ← mine]
    exact filled
  · rename_i empty
    refine refines_takeNonBlock population ?_ equal
    rw [← mine]
    exact not_not.mp empty

end PopMsg

section Calls

variable (population : Population Vm Service)

omit [DecidableEq Vm] [DecidableEq Service] in
theorem implements_findIdle (vms : List Vm) :
    (discipline Vm Service).Implements kept held (Locking.findIdle vms) (findIdle vms) := by
  induction vms with
  | nil => exact implements_pure none
  | cons vm rest ih =>
      refine (implements_isIdle vm).bind fun idle => ?_
      split
      · exact implements_pure (some vm)
      · exact ih

theorem implements_pushMsg2FreeVm (info : Service) (mail : Mail) :
    (discipline Vm Service).Implements kept held (Locking.pushMsg2FreeVm population info mail)
      (pushMsg2FreeVm population info mail) := by
  refine Implements.withLock rfl (fun _ _ => trivial) ?_
  refine (implements_findIdle (population.map_ info)).bind fun pIdle => ?_
  cases pIdle with
  | some pIdle => exact implements_pushMsg pIdle mail
  | none => exact implements_put info mail

omit [DecidableEq Vm] [DecidableEq Service] in
theorem implements_fetchContext (id : Int32) : (discipline Vm Service).Implements kept held
    (Locking.fetchContext population id) (fetchContext population id) :=
  implements_withLock_pure rfl _

omit [DecidableEq Vm] [DecidableEq Service] in
theorem implements_fetchService (name : String) : (discipline Vm Service).Implements kept held
    (Locking.fetchService population name) (fetchService population name) :=
  implements_withLock_pure rfl _

theorem implements_report (self : Vm) (msg : Mail) (vms : List Vm) :
    (discipline Vm Service).Implements kept held (Locking.report population self msg vms)
      (report population self msg vms) := by
  induction vms with
  | nil => exact implements_pure ()
  | cons obj rest ih =>
      unfold Locking.report report
      split
      · exact ih
      · exact (implements_pushMsg obj msg).bind fun _ => ih

theorem implements_sendByVmId (self : Vm) (targetVmId : Int64) (charMsg : Option (List UInt8))
    (size : Int64) : (discipline Vm Service).Implements kept held
      (Locking.sendByVmId population self targetVmId charMsg size)
      (sendByVmId population self targetVmId charMsg size) := by
  refine (implements_newSession self).bind fun session => ?_
  refine (implements_fetchContext population targetVmId.toInt32).bind fun target => ?_
  cases target with
  | some target => exact (implements_pushMsg target _).bind fun _ => implements_pure true
  | none => exact implements_pure false

theorem implements_sendByServiceName (self : Vm) (serviceName : String)
    (charMsg : Option (List UInt8)) (size : Int64) :
    (discipline Vm Service).Implements kept held
      (Locking.sendByServiceName population self serviceName charMsg size)
      (sendByServiceName population self serviceName charMsg size) := by
  refine (implements_newSession self).bind fun session => ?_
  refine (implements_fetchService population serviceName).bind fun service => ?_
  cases service with
  | some service =>
      exact (implements_pushMsg2FreeVm population service _).bind fun _ => implements_pure true
  | none => exact implements_pure false

theorem implements_body (call : Call Vm) : (discipline Vm Service).Implements kept held
    (Locking.body population call) (body population call) := by
  cases call with
  | sendByVmId self targetVmId charMsg size =>
      exact (implements_sendByVmId population self targetVmId charMsg size).bind fun _ =>
        implements_pure _
  | sendByServiceName self serviceName charMsg size =>
      exact (implements_sendByServiceName population self serviceName charMsg size).bind fun _ =>
        implements_pure _
  | iAmReady self pBuff len =>
      exact (implements_report population self _ _).bind fun _ => implements_pure _
  | getInternalMsgNonBlock self =>
      exact (implements_popMsg population self).bind fun _ => implements_pure _
  | runAsync vm => exact (implements_runAsync vm).bind fun _ => implements_pure _

/-- Any number of threads whose calls take whole steps. -/
def machine (Thread : Type) [DecidableEq Thread] (init : State Vm Service) :
    Machine (Locks.World (Mutex Vm Service) (State Vm Service) Thread Result)
      (Locks.Event Thread (Call Vm)) :=
  Locks.machine (body population) .done init

variable {Thread : Type} [DecidableEq Thread]

/-- The calls that have returned have returned the same with whole steps, and as long as nobody
holds a mutex, the contexts, the sessions and the queues are the same. -/
structure Matching (fine whole : Locks.World (Mutex Vm Service) (State Vm Service) Thread Result) :
    Prop where
  returned : ∀ thread result, fine.program thread = .done result →
    whole.program thread = .done result
  state : (∀ mutex, fine.holder mutex = none) → fine.state = whole.state

/-- **The operations are atomic.** Every run of threads with all the mutexes is answered, event
by event, by a run of threads whose operations take effect as a whole: a call is answered by the
start of the same call, a step of a thread by one step of this thread or none. After each of the
events what has been returned is the same, and so is the state, unless someone holds a mutex. -/
theorem operations_atomic (init : State Vm Service) (events : List (Locks.Event Thread (Call Vm)))
    (world : Locks.World (Mutex Vm Service) (State Vm Service) Thread Result)
    (ran : (Locking.machine population Thread init).run events = some world) :
    ∃ rounds : List (Locks.Event Thread (Call Vm) × List (Locks.Event Thread (Call Vm))),
      rounds.map Prod.fst = events ∧ (∀ round ∈ rounds, Locks.Answers round.1 round.2) ∧
        ∀ first, first <+: rounds →
          (Locking.machine population Thread init).Reached (machine population Thread init)
            Matching first := by
  have simulates : (Locking.machine population Thread init).Simulates
      (machine population Thread init) _ _ :=
    Locks.simulates (fun call => implements_body population call) .done init
  obtain ⟨rounds, same, answered, every⟩ := simulates.run events world ran
  refine ⟨rounds, same, answered, fun first before => ?_⟩
  obtain ⟨fine, whole_, ranFine, ranWhole, held, matches_⟩ := every first before
  refine ⟨fine, whole_, ranFine, ranWhole, fun thread result done => ?_, fun free => ?_⟩
  · exact (matches_.answered done).1
  · exact matches_.state_eq whole free

end Calls

end Refinement

theorem operations_atomic_sendWhilePopping :
    ∃ rounds : List (Locks.Event Bool (Call Bool) × List (Locks.Event Bool (Call Bool))),
      rounds.map Prod.fst = sendWhilePopping ∧
        (Locking.machine twoVms Bool oneMessage).Reached (machine twoVms Bool oneMessage) Matching
          rounds :=
  match operations_atomic twoVms oneMessage sendWhilePopping _ rfl with
  | ⟨rounds, same, _, every⟩ => ⟨rounds, same, every rounds (List.prefix_refl rounds)⟩

end Atomic

end Locking

end EasyLua
