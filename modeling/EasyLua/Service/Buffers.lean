import EasyLua.Foundation.Ownership
import EasyLua.Service.Locking

/-!
# The buffers of the messages

What `luaseri_pack` has written is in a buffer behind a `std::shared_ptr`. A script holds a
pointer to one that `new` has made, and has to give it to `trash` in the end. A message has one
of its own, and so have its copies: the local one of the call that sends it, the one in the queue,
the one that `popMsg` returns. Threads make and destroy them in any order, and nothing but their
count decides when the buffer is freed.

A reference stands for one `std::shared_ptr`, wherever it is. Moving it does not change it. The
lengths that go along with the buffers are in `MessageSize`, and whom a message reaches is given.
-/

namespace EasyLua

namespace Buffers

open Counted (Program Interface Leaves SafeCall)
open Locking (QueueOf)

variable {Vm Service : Type}

variable (Vm Service) in
/-- What a thread does to buffers of bytes and to the queues of messages. -/
abbrev Action (α : Type) := Program (List UInt8) (QueueOf Vm Service) α

/-! ## `blockQueue.h`, `context.cpp` and `serviceInfo.cpp` -/

/-- `cBlockQueue::put`, which copies its argument. -/
def put (queue : QueueOf Vm Service) (x : Nat) : Action Vm Service Unit := do
  let copied ← .copy x .done
  .put copied queue (.done ())

/-- `cVmContext::pushMsg`. -/
def pushMsg (vm : Vm) (msg : Nat) : Action Vm Service Unit := put (.own vm) msg

/-- `cServiceInfo::pushMsg2FreeVm`, with the idle VM that it has found. -/
def pushMsg2FreeVm (info : Service) (pIdle : Option Vm) (msg : Nat) : Action Vm Service Unit :=
  match pIdle with
  | some vm => pushMsg vm msg
  | none => put (.shared info) msg

/-- `cVmContext::popMsg`: the message from one of the two queues, or an invalid one. -/
def popMsg (self : Vm) (info : Service) : Action Vm Service (Option Nat) := do
  match ← .take (.own self) .done with
  | some msg => return some msg
  | none => .take (.shared info) .done

/-- The messages of a queue are destroyed. -/
def destroyAll : List Nat → Action Vm Service Unit
  | [] => return ()
  | msg :: rest => do
      .destroy msg (.done ())
      destroyAll rest

/-! ## `thisVM.cpp` and `serviceEntry.cpp` -/

/-- What a script is given: a light userdata, a string, whether the addressee was found. -/
inductive Result
  | userdata (pBuffer : Nat)
  | string (bytes : List UInt8)
  | boolean (found : Bool)
  | nothing
  | error (text : String)
  deriving DecidableEq

/-- What a script gives to `trash`. -/
inductive Param
  | string
  | lightuserdata (pBuff : Nat)
  | other (typename : String)

/-- `seri`, in the end of `luaseri_pack`. -/
def seri (bytes : List UInt8) : Action Vm Service Nat := .make bytes .done

def luaseri_pack (bytes : List UInt8) : Action Vm Service Result := do
  let pBuffer ← seri bytes
  return .userdata pBuffer

def lpackstring (bytes : List UInt8) : Action Vm Service Result := do
  let pBuff ← seri bytes
  let str ← .read pBuff .done
  .destroy pBuff (.done ())
  return .string str

/-- `ltostring`: none or `nil`, or a light userdata. -/
def ltostring : Option Nat → Action Vm Service Result
  | none => return .nothing
  | some pBuff => do
      let msg ← .read pBuff .done
      return .string msg

/-- What `luaseri_unpack` reads: no buffer when it is given a string, none or `nil`. -/
def luaseri_unpack : Option Nat → Action Vm Service Result
  | none => return .nothing
  | some pBuffer => do
      let buffer ← .read pBuffer .done
      return .string buffer

def ltrash : Param → Action Vm Service Result
  | .string => return .nothing
  | .lightuserdata pBuff => .destroy pBuff (.done .nothing)
  | .other typename => return .error ("skynet.trash invalid param " ++ typename)

/-- `sendByVmId`, with what the manager has found. -/
def sendByVmId (charMsg : Nat) (targetVmContext : Option Vm) : Action Vm Service Result := do
  let msg ← .copy charMsg .done
  match targetVmContext with
  | some vm => do
      pushMsg vm msg
      .destroy msg (.done ())
      return .boolean true
  | none => do
      .destroy msg (.done ())
      return .boolean false

/-- `sendByServiceName`, with the service that the manager has found and its idle VM. -/
def sendByServiceName (charMsg : Nat) (service : Option (Service × Option Vm)) :
    Action Vm Service Result := do
  let msg ← .copy charMsg .done
  match service with
  | some (info, pIdle) => do
      pushMsg2FreeVm info pIdle msg
      .destroy msg (.done ())
      return .boolean true
  | none => do
      .destroy msg (.done ())
      return .boolean false

/-- The loop of `iAmReady` over the VMs of other services: `msg` is destroyed in each round. -/
def report (pBuff : Nat) : List Vm → Action Vm Service Unit
  | [] => return ()
  | obj :: rest => do
      let msg ← .copy pBuff .done
      pushMsg obj msg
      .destroy msg (.done ())
      report pBuff rest

def iAmReady (bytes : List UInt8) (objs : List Vm) : Action Vm Service Result := do
  let pBuff ← seri bytes
  report pBuff objs
  .destroy pBuff (.done .nothing)

/-- `getInternalMsgNonBlock`: the script gets a reference of its own. -/
def getInternalMsgNonBlock (self : Vm) (info : Service) : Action Vm Service Result := do
  match ← popMsg self info with
  | none => return .nothing
  | some msg => do
      let pBuffer ← .copy msg .done
      .destroy msg (.done ())
      return .userdata pBuffer

/-- The end of a `cVmContext` or of a `cServiceInfo`, with the messages in its queue. -/
def destruct (queue : QueueOf Vm Service) : Action Vm Service Result := do
  let msgs ← .drain queue .done
  destroyAll msgs
  return .nothing

variable (Vm Service) in
/-- A call of a script on the library or on its `cThisVM`, or the end of a queue. -/
inductive Call
  | pack (bytes : List UInt8)
  | packstring (bytes : List UInt8)
  | tostring (pBuff : Option Nat)
  | unpack (pBuffer : Option Nat)
  | trash (param : Param)
  | sendByVmId (charMsg : Nat) (targetVmContext : Option Vm)
  | sendByServiceName (charMsg : Nat) (service : Option (Service × Option Vm))
  | iAmReady (bytes : List UInt8) (objs : List Vm)
  | getInternalMsgNonBlock (self : Vm) (info : Service)
  | destruct (queue : QueueOf Vm Service)

/-- What a thread does in a call. -/
def body : Call Vm Service → Action Vm Service Result
  | .pack bytes => luaseri_pack bytes
  | .packstring bytes => lpackstring bytes
  | .tostring pBuff => ltostring pBuff
  | .unpack pBuffer => luaseri_unpack pBuffer
  | .trash param => ltrash param
  | .sendByVmId charMsg targetVmContext => sendByVmId charMsg targetVmContext
  | .sendByServiceName charMsg service => sendByServiceName charMsg service
  | .iAmReady bytes objs => iAmReady bytes objs
  | .getInternalMsgNonBlock self info => getInternalMsgNonBlock self info
  | .destruct queue => destruct queue

/-- The light userdata that a script passes to a call. -/
def uses : Call Vm Service → List Nat
  | .tostring pBuff => pBuff.toList
  | .unpack pBuffer => pBuffer.toList
  | .trash (.lightuserdata pBuff) => [pBuff]
  | .sendByVmId charMsg _ => [charMsg]
  | .sendByServiceName charMsg _ => [charMsg]
  | _ => []

/-- The ones that the script must not use any more. -/
def takes : Call Vm Service → List Nat
  | .trash (.lightuserdata pBuff) => [pBuff]
  | _ => []

/-- A light userdata that the script must give to `trash`. -/
def gives : Result → List Nat
  | .userdata pBuffer => [pBuffer]
  | _ => []

variable (Vm Service) in
def interface : Interface (List UInt8) (QueueOf Vm Service) (Call Vm Service) Result where
  body := body
  uses := uses
  takes := takes
  gives := gives

/-! ## Every call accounts for its references -/

section Safety

variable {owned : Set Nat} {msg : Nat}

/-- The thread owns afterwards what it has owned before. -/
abbrev Keeps (owned : Set Nat) (α : Type) (_ : α) (after : Set Nat) : Prop := after = owned

theorem safe_put (queue : QueueOf Vm Service) (mine : msg ∈ owned) :
    (put queue msg).Safe (Keeps owned Unit) owned :=
  ⟨mine, fun copied fresh => ⟨Set.mem_insert copied owned, Set.insert_sdiff_self_of_notMem fresh⟩⟩

theorem safe_pushMsg2FreeVm (info : Service) (pIdle : Option Vm) (mine : msg ∈ owned) :
    (pushMsg2FreeVm info pIdle msg).Safe (Keeps owned Unit) owned := by
  cases pIdle with
  | some vm => exact safe_put (.own vm) mine
  | none => exact safe_put (.shared info) mine

theorem safe_report {pBuff : Nat} (mine : pBuff ∈ owned) (objs : List Vm) :
    (report pBuff objs : Action Vm Service Unit).Safe (Keeps owned Unit) owned := by
  induction objs with
  | nil => rfl
  | cons obj rest ih =>
      refine ⟨mine, fun msg fresh => ?_⟩
      refine (safe_put (.own obj) (Set.mem_insert msg owned)).bind ?_
      intro _ after same
      rw [same]
      refine ⟨Set.mem_insert msg owned, ?_⟩
      rw [Set.insert_sdiff_self_of_notMem fresh]
      exact ih

theorem safe_destroyAll {msgs : List Nat} (distinct : msgs.Nodup)
    (fresh : ∀ msg ∈ msgs, msg ∉ owned) :
    (destroyAll msgs : Action Vm Service Unit).Safe (Keeps owned Unit)
      (owned ∪ {msg | msg ∈ msgs}) := by
  induction msgs with
  | nil =>
      change owned ∪ {msg | msg ∈ []} = owned
      simp
  | cons msg rest ih =>
      obtain ⟨different, others⟩ := List.nodup_cons.mp distinct
      have later := ih others fun other member => fresh other (List.mem_cons_of_mem msg member)
      refine ⟨by simp, ?_⟩
      have same : (owned ∪ {other | other ∈ msg :: rest}) \ {msg} =
          owned ∪ {other | other ∈ rest} := by
        ext other
        by_cases itself : other = msg
        · simp [itself, different, fresh msg List.mem_cons_self]
        · simp [itself]
      rw [same]
      exact later

/-- A call that gives nothing. -/
theorem safe_return (result : Result) (nothing : gives result = []) :
    (.done result : Action Vm Service Result).Safe (Leaves (interface Vm Service) owned) owned := by
  unfold Program.Safe Leaves interface
  simp [nothing]

/-- A new light userdata is left to the caller. -/
theorem safe_give (pBuffer : Nat) :
    (.done (.userdata pBuffer) : Action Vm Service Result).Safe
      (Leaves (interface Vm Service) owned) (insert pBuffer owned) := by
  unfold Program.Safe Leaves interface
  ext reference
  simp [gives, or_comm]

/-- A local `std::shared_ptr` is destroyed at the end of its scope. -/
theorem safe_destroy (result : Result) (nothing : gives result = []) (fresh : msg ∉ owned) :
    (.destroy msg (.done result) : Action Vm Service Result).Safe
      (Leaves (interface Vm Service) owned) (insert msg owned) := by
  refine ⟨Set.mem_insert msg owned, ?_⟩
  rw [Set.insert_sdiff_self_of_notMem fresh]
  exact safe_return result nothing

/-- A message is pushed and destroyed at the end of its scope. -/
theorem safe_push {push : Action Vm Service Unit} (result : Result) (nothing : gives result = [])
    (safe : push.Safe (Keeps (insert msg owned) Unit) (insert msg owned)) (fresh : msg ∉ owned) :
    (push.bind fun _ => .destroy msg (.done result)).Safe
      (Leaves (interface Vm Service) owned) (insert msg owned) := by
  refine safe.bind ?_
  intro _ after same
  rw [same]
  exact safe_destroy result nothing fresh

/-- The message that was popped goes, and the reference of the script stays. -/
theorem safe_hand (fresh : msg ∉ owned) :
    (.copy msg fun pBuffer => .destroy msg (.done (.userdata pBuffer)) :
      Action Vm Service Result).Safe (Leaves (interface Vm Service) owned) (insert msg owned) := by
  refine ⟨Set.mem_insert msg owned, fun pBuffer new => ?_⟩
  refine ⟨Set.mem_insert_of_mem pBuffer (Set.mem_insert msg owned), ?_⟩
  have different : msg ≠ pBuffer := fun same => new (same ▸ Set.mem_insert msg owned)
  have left : insert pBuffer (insert msg owned) \ {msg} = insert pBuffer owned := by
    ext reference
    by_cases itself : reference = msg
    · simp [itself, fresh, different]
    · simp [itself]
  rw [left]
  exact safe_give pBuffer

/-- **Every call** that leaves its caller the light userdata that it is given. -/
theorem safe_body (call : Call Vm Service) (mine : ∀ reference ∈ uses call, reference ∈ owned)
    (nothing : takes call = []) :
    (body call).Safe (Leaves (interface Vm Service) owned) owned := by
  cases call with
  | pack bytes => exact fun pBuffer _ => safe_give pBuffer
  | packstring bytes =>
      exact fun pBuff fresh =>
        ⟨Set.mem_insert pBuff owned, fun str => safe_destroy (.string str) rfl fresh⟩
  | tostring pBuff =>
      cases pBuff with
      | none => exact safe_return .nothing rfl
      | some pBuff =>
          exact ⟨mine pBuff List.mem_cons_self, fun msg => safe_return (.string msg) rfl⟩
  | unpack pBuffer =>
      cases pBuffer with
      | none => exact safe_return .nothing rfl
      | some pBuffer =>
          exact ⟨mine pBuffer List.mem_cons_self, fun buffer => safe_return (.string buffer) rfl⟩
  | trash param =>
      cases param with
      | string => exact safe_return .nothing rfl
      | lightuserdata pBuff => cases nothing
      | other typename => exact safe_return (.error _) rfl
  | sendByVmId charMsg targetVmContext =>
      refine ⟨mine charMsg List.mem_cons_self, fun msg fresh => ?_⟩
      cases targetVmContext with
      | some vm =>
          exact safe_push (.boolean true) rfl (safe_put (.own vm) (Set.mem_insert msg owned)) fresh
      | none => exact safe_destroy (.boolean false) rfl fresh
  | sendByServiceName charMsg service =>
      refine ⟨mine charMsg List.mem_cons_self, fun msg fresh => ?_⟩
      cases service with
      | some service =>
          exact safe_push (.boolean true) rfl
            (safe_pushMsg2FreeVm service.1 service.2 (Set.mem_insert msg owned)) fresh
      | none => exact safe_destroy (.boolean false) rfl fresh
  | iAmReady bytes objs =>
      exact fun pBuff fresh =>
        safe_push .nothing rfl (safe_report (Set.mem_insert pBuff owned) objs) fresh
  | getInternalMsgNonBlock self info =>
      exact ⟨⟨safe_return .nothing rfl, fun msg fresh => safe_hand fresh⟩,
        fun msg fresh => safe_hand fresh⟩
  | destruct queue =>
      intro msgs distinct fresh
      refine (safe_destroyAll distinct fresh).bind ?_
      intro _ after same
      rw [same]
      exact safe_return .nothing rfl

/-- **Every call** is safe; the light userdata that `trash` is given is not left. -/
theorem safeCall (call : Call Vm Service) : SafeCall (interface Vm Service) call := by
  intro owned mine
  by_cases nothing : takes call = []
  · have all : {reference ∈ owned | reference ∉ takes call} = owned := by simp [nothing]
    change (body call).Safe
      (Leaves (interface Vm Service) {reference ∈ owned | reference ∉ takes call}) owned
    rw [all]
    exact safe_body call mine nothing
  · cases call with
    | trash param =>
        cases param with
        | string => exact absurd rfl nothing
        | other typename => exact absurd rfl nothing
        | lightuserdata pBuff =>
            refine ⟨mine pBuff List.mem_cons_self, ?_⟩
            unfold Program.Safe Leaves
            ext reference
            simp [interface, gives, takes]
    | _ => exact absurd rfl nothing

end Safety

/-- The first thing that a call does with a light userdata is to use it. -/
theorem body_touches {call : Call Vm Service} {pBuff : Nat} (used : pBuff ∈ uses call) :
    (∃ rest, body call = .copy pBuff rest) ∨ (∃ rest, body call = .read pBuff rest) ∨
      ∃ rest, body call = .destroy pBuff rest := by
  cases call with
  | tostring given =>
      obtain rfl := Option.mem_toList.mp used
      exact Or.inr (Or.inl ⟨_, rfl⟩)
  | unpack given =>
      obtain rfl := Option.mem_toList.mp used
      exact Or.inr (Or.inl ⟨_, rfl⟩)
  | trash param =>
      cases param with
      | lightuserdata given =>
          obtain rfl := List.mem_singleton.mp used
          exact Or.inr (Or.inr ⟨_, rfl⟩)
      | _ => cases used
  | sendByVmId charMsg targetVmContext =>
      obtain rfl := List.mem_singleton.mp used
      exact Or.inl ⟨_, rfl⟩
  | sendByServiceName charMsg service =>
      obtain rfl := List.mem_singleton.mp used
      exact Or.inl ⟨_, rfl⟩
  | _ => cases used

/-! ## Buffers are freed once -/

variable {Thread : Type}

/-- What is true of the buffers. -/
structure FreedOnce (world : Counted.World (List UInt8) (QueueOf Vm Service) Thread Result) :
    Prop where
  /-- No step has used a `std::shared_ptr` that was destroyed, or a freed buffer. -/
  intact : world.broken = false
  nodup : world.memory.freed.Nodup
  /-- The buffers that no `std::shared_ptr` leads to are freed, and no others. -/
  freed_iff : ∀ buffer, buffer ∈ world.memory.freed ↔
    buffer < world.memory.made.length ∧ ∀ reference, world.memory.target reference ≠ some buffer
  /-- The count of a buffer is that of the `std::shared_ptr` that lead to it. -/
  counted : ∀ buffer < world.memory.made.length, ∃ references : List Nat, references.Nodup ∧
    (∀ reference, reference ∈ references ↔ world.memory.target reference = some buffer) ∧
    world.memory.count buffer = references.length
  /-- What a script has, and what waits in a queue, can be read as it was written. -/
  readable : ∀ reference,
    (∃ thread, world.program thread = none ∧ reference ∈ world.keeps thread) ∨
        (∃ queue, reference ∈ world.queue queue) →
      ∃ buffer bytes, world.memory.target reference = some buffer ∧
        world.memory.made[buffer]? = some bytes ∧ world.memory.read reference = some bytes
  /-- Between the calls nothing else keeps a buffer. -/
  kept : (∀ thread, world.program thread = none) → ∀ buffer < world.memory.made.length,
    buffer ∈ world.memory.freed ∨ ∃ reference, world.memory.target reference = some buffer ∧
      ((∃ queue, reference ∈ world.queue queue) ∨ ∃ thread, reference ∈ world.keeps thread)

theorem Sound.freedOnce {owner : Nat → Option (Counted.Owner Thread (QueueOf Vm Service))}
    {world : Counted.World (List UInt8) (QueueOf Vm Service) Thread Result}
    (sound : Counted.Sound (interface Vm Service) owner world) : FreedOnce world where
  intact := sound.intact
  nodup := sound.exact.freed_nodup
  freed_iff := sound.exact.mem_freed_iff
  counted := fun buffer inside => sound.exact.count inside
  readable := by
    intro reference held
    have owns : ∃ someone, owner reference = some someone := by
      rcases held with ⟨thread, idle, keeps⟩ | ⟨queue, waits⟩
      · have mine : reference ∈ Counted.Owned owner thread := by
          rw [sound.idle thread idle]
          exact keeps
        exact ⟨_, mine⟩
      · exact ⟨_, (sound.queued queue reference).mp waits⟩
    obtain ⟨someone, owns⟩ := owns
    obtain ⟨buffer, leads⟩ := sound.live owns
    obtain ⟨bytes, read, written⟩ := sound.exact.read leads
    exact ⟨buffer, bytes, leads, written, read⟩
  kept := by
    intro idle buffer inside
    by_cases gone : ∀ reference, world.memory.target reference ≠ some buffer
    · exact Or.inl ((sound.exact.mem_freed_iff buffer).mpr ⟨inside, gone⟩)
    · obtain ⟨reference, leads⟩ := not_forall_not.mp gone
      exact Or.inr ⟨reference, leads, sound.accounted idle leads⟩

variable [DecidableEq Vm] [DecidableEq Service] [DecidableEq Thread]

variable (Vm Service Thread) in
/-- Threads that call these functions in any order, from the beginning. -/
abbrev machine :
    Machine (Counted.World (List UInt8) (QueueOf Vm Service) Thread Result)
      (Counted.Event Thread (Call Vm Service)) :=
  Counted.machine (interface Vm Service)

/-- A call with a light userdata that was given to `trash` goes wrong at once. -/
theorem broken_of_trashed {world : Counted.World (List UInt8) (QueueOf Vm Service) Thread Result}
    (intact : world.broken = false) {thread : Thread} (idle : world.program thread = none)
    {call : Call Vm Service} {pBuff : Nat} (used : pBuff ∈ uses call)
    (trashed : world.memory.target pBuff = none) :
    ∃ next, (machine Vm Service Thread).runFrom world [.start thread call, .proceed thread] =
        some next ∧ next.broken = true := by
  have nowhere : world.memory.follow pBuff = none := by
    unfold Counted.Memory.follow
    rw [trashed]
  have unread : world.memory.read pBuff = none := by
    unfold Counted.Memory.read
    rw [nowhere, Option.bind_none]
  have going : ¬ world.broken = true := by simp [intact]
  have runs : (machine Vm Service Thread).runFrom world [.start thread call, .proceed thread] =
      some (({ world with
          program := Function.update world.program thread (some (body call))
          keeps := Function.update world.keeps thread
            ((world.keeps thread).filter (· ∉ takes call)) } :
        Counted.World (List UInt8) (QueueOf Vm Service) Thread Result).proceed
          (interface Vm Service) thread (body call)) := by
    simp [Machine.runFrom_cons, Counted.machine, Counted.step, going, idle, interface]
  refine ⟨_, runs, ?_⟩
  rcases body_touches used with ⟨rest, first⟩ | ⟨rest, first⟩ | ⟨rest, first⟩
  · simp [first, Counted.World.proceed, Counted.Memory.copy, nowhere]
  · simp [first, Counted.World.proceed, unread]
  · simp [first, Counted.World.proceed, Counted.Memory.destroy, nowhere]

/-- **Every buffer is freed once**, with the last `std::shared_ptr` to it, in every run of any
number of threads whose scripts pass only light userdata that they have and did not give to
`trash`. Nothing is read after it was freed, and nothing is lost between the calls. A call with
a light userdata that was given to `trash` goes wrong at once. -/
theorem buffers_freed_once {events : List (Counted.Event Thread (Call Vm Service))}
    {world : Counted.World (List UInt8) (QueueOf Vm Service) Thread Result}
    (legal : (machine Vm Service Thread).Guarded (Counted.Legal (interface Vm Service))
      (machine Vm Service Thread).init events)
    (ran : (machine Vm Service Thread).run events = some world) :
    FreedOnce world ∧
      ∀ thread call pBuff, world.program thread = none → pBuff ∈ uses call →
        world.memory.target pBuff = none →
          ∃ next, (machine Vm Service Thread).run
              (events ++ [.start thread call, .proceed thread]) = some next ∧
            next.broken = true := by
  obtain ⟨owner, sound⟩ := Counted.sound_of_run safeCall legal ran
  refine ⟨Sound.freedOnce sound, ?_⟩
  intro thread call pBuff idle used trashed
  rw [Machine.run_append, ran, Option.bind_some]
  exact broken_of_trashed sound.intact idle used trashed

/-- One thread sends what it has packed and gives it to `trash` at once; another one takes the
message, reads it and gives it to `trash`. -/
def handedOver : List (Counted.Event Bool (Call Unit Unit)) :=
  [.start false (.pack [1, 2]), .proceed false, .proceed false,
    .start false (.sendByVmId 0 (some ())), .proceed false, .proceed false,
    .start true (.getInternalMsgNonBlock () ()), .proceed false, .proceed true, .proceed false,
    .proceed false, .start false (.trash (.lightuserdata 0)), .proceed true, .proceed false,
    .proceed false, .proceed true, .proceed true, .start true (.unpack (some 3)), .proceed true,
    .proceed true, .start true (.trash (.lightuserdata 3)), .proceed true, .proceed true]

/-- The buffer outlives the sender's call of `trash` and is freed by the receiver's. -/
theorem buffers_freed_once_handedOver :
    ∃ world, (machine Unit Unit Bool).run handedOver = some world ∧ world.memory.freed = [0] ∧
      FreedOnce world := by
  have legal : (machine Unit Unit Bool).Guarded (Counted.Legal (interface Unit Unit))
      (machine Unit Unit Bool).init handedOver := by decide
  exact ⟨_, rfl, rfl, (buffers_freed_once legal rfl).1⟩

end Buffers

end EasyLua
