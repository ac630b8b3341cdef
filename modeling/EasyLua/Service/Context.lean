import Mathlib.Data.List.Basic

/-!
# Messages, queues and VM contexts

`Message`, `cBlockQueue` and `cVmContext` as they stand in `message.h`,
`blockQueue.h` and `context.cpp`. Each member function runs entirely under its
object's own mutex, so it is one function from the old state to the new one.

A queued message carries the number of the call that pushed it. No function
reads this number; it tells apart two messages with equal contents when a
statement is about each message sent.
-/

namespace EasyLua

/-- `Message`. The payload pointer is absent for a null `data`, and `sz` keeps the
message type in its high eight bits. -/
structure Message where
  sourceServiceName : String := ""
  sourceVm : UInt32 := 0
  session : Int32 := 0
  data : Option (List UInt8) := none
  sz : UInt64 := 0
  deriving DecidableEq

/-- The default constructor `Message()`. -/
instance : Inhabited Message := ⟨{}⟩

/-- `Message::invalid`. -/
def Message.invalid (msg : Message) : Bool := msg.data.isNone

/-- A message in a queue, with the number of the call that pushed it. -/
structure Mail where
  serial : Nat := 0
  msg : Message := {}
  deriving DecidableEq

instance : Inhabited Mail := ⟨{}⟩

/-- `cBlockQueue`: the contents of its deque, oldest first. -/
structure BlockQueue (T : Type) where
  queue_ : List T := []

namespace BlockQueue

variable {T : Type}

/-- `cBlockQueue::put`. -/
def put (queue : BlockQueue T) (x : T) : BlockQueue T := { queue_ := queue.queue_ ++ [x] }

/-- `cBlockQueue::takeNonBlock`: the front, or a default value from an empty queue. -/
def takeNonBlock [Inhabited T] (queue : BlockQueue T) : T × BlockQueue T :=
  match queue.queue_ with
  | [] => (default, queue)
  | front :: rest => (front, { queue_ := rest })

/-- `cBlockQueue::take`: no result stands for a caller left waiting on `cv_`. -/
def take (queue : BlockQueue T) : Option (T × BlockQueue T) :=
  match queue.queue_ with
  | [] => none
  | front :: rest => some (front, { queue_ := rest })

/-- `cBlockQueue::size`. -/
def size (queue : BlockQueue T) : Nat := queue.queue_.length

@[simp] theorem put_queue_ (queue : BlockQueue T) (x : T) :
    (queue.put x).queue_ = queue.queue_ ++ [x] := rfl

/-- A queue that is not empty yields its front. -/
theorem take_of_cons {queue : BlockQueue T} {front : T} {rest : List T}
    (filled : queue.queue_ = front :: rest) :
    queue.take = some (front, { queue_ := rest }) := by
  unfold take
  rw [filled]

@[ext] theorem ext {first second : BlockQueue T} (same : first.queue_ = second.queue_) :
    first = second := by
  cases first
  cases second
  exact congrArg BlockQueue.mk same

/-- No queued message has a null payload. -/
def Valid (queue : BlockQueue Mail) : Prop := ∀ mail ∈ queue.queue_, mail.msg.data ≠ none

theorem Valid.empty : Valid {} := by
  intro mail member
  exact absurd member List.not_mem_nil

theorem Valid.put {queue : BlockQueue Mail} {mail : Mail} (valid : queue.Valid)
    (payload : mail.msg.data ≠ none) : (queue.put mail).Valid := by
  intro other member
  rcases List.mem_append.mp member with old | new
  · exact valid other old
  · exact List.mem_singleton.mp new ▸ payload

theorem Valid.tail {queue : BlockQueue Mail} {mail : Mail} {rest : List Mail}
    (valid : queue.Valid) (front : queue.queue_ = mail :: rest) : Valid { queue_ := rest } :=
  fun other member => valid other (front ▸ List.mem_cons_of_mem mail member)

end BlockQueue

/-- `cVmContext` as far as dispatch uses it: its idle flag and own queue, and whether
its async watcher has been signalled since its loop last ran the callback. -/
structure VmContext where
  bIdle : Bool := true
  msgQueue_ : BlockQueue Mail := {}
  asyncPending : Bool := false

namespace VmContext

/-- `cVmContext::pushMsg`. -/
def pushMsg (context : VmContext) (mail : Mail) : VmContext :=
  { context with
    bIdle := false
    msgQueue_ := context.msgQueue_.put mail
    asyncPending := true }

/-- `cVmContext::popMsg` on the context and the queue of its service. There is no
result when the call would wait inside `take`. -/
def popMsg (context : VmContext) (serviceQueue : BlockQueue Mail) :
    Option (Mail × VmContext × BlockQueue Mail) :=
  if context.msgQueue_.size ≠ 0 then
    match context.msgQueue_.take with
    | some (mail, rest) =>
        some (mail, { context with bIdle := false, msgQueue_ := rest }, serviceQueue)
    | none => none
  else
    let (mail, rest) := serviceQueue.takeNonBlock
    if mail.msg.data ≠ none then
      some (mail, { context with bIdle := false }, rest)
    else
      some (default, { context with bIdle := true }, rest)

/-- `cVmContext::isIdle`. -/
def isIdle (context : VmContext) : Bool := context.bIdle

@[simp] theorem pushMsg_queue_ (context : VmContext) (mail : Mail) :
    (context.pushMsg mail).msgQueue_.queue_ = context.msgQueue_.queue_ ++ [mail] := rfl

/-- A message of the own queue is returned first. -/
theorem popMsg_own (context : VmContext) (serviceQueue : BlockQueue Mail) (mail : Mail)
    (rest : List Mail) (own : context.msgQueue_.queue_ = mail :: rest) :
    context.popMsg serviceQueue =
      some (mail, { context with bIdle := false, msgQueue_ := { queue_ := rest } },
        serviceQueue) := by
  have nonempty : context.msgQueue_.size ≠ 0 := by
    simp only [BlockQueue.size, own, List.length_cons]
    omega
  simp only [popMsg, nonempty, BlockQueue.take_of_cons own, ne_eq, not_false_eq_true, ↓reduceIte]

/-- With an empty own queue the front of the service's queue is returned. -/
theorem popMsg_service (context : VmContext) (serviceQueue : BlockQueue Mail) (mail : Mail)
    (rest : List Mail) (own : context.msgQueue_.queue_ = [])
    (shared : serviceQueue.queue_ = mail :: rest) (valid : mail.msg.data ≠ none) :
    context.popMsg serviceQueue =
      some (mail, { context with bIdle := false }, { queue_ := rest }) := by
  simp only [popMsg, BlockQueue.size, own, List.length_nil, ne_eq, not_true_eq_false, ↓reduceIte,
    BlockQueue.takeNonBlock, shared, valid, not_false_eq_true]

/-- A message without payload at the front of the service's queue is taken for an empty
queue. -/
theorem popMsg_null (context : VmContext) (serviceQueue : BlockQueue Mail) (mail : Mail)
    (rest : List Mail) (own : context.msgQueue_.queue_ = [])
    (shared : serviceQueue.queue_ = mail :: rest) (null : mail.msg.data = none) :
    context.popMsg serviceQueue =
      some (default, { context with bIdle := true }, { queue_ := rest }) := by
  simp only [popMsg, BlockQueue.size, own, List.length_nil, ne_eq, not_true_eq_false, ↓reduceIte,
    BlockQueue.takeNonBlock, shared, null]

/-- With both queues empty the context turns idle. -/
theorem popMsg_empty (context : VmContext) (serviceQueue : BlockQueue Mail)
    (own : context.msgQueue_.queue_ = []) (shared : serviceQueue.queue_ = []) :
    context.popMsg serviceQueue = some (default, { context with bIdle := true }, serviceQueue) := by
  have null : (default : Mail).msg.data = none := rfl
  simp only [popMsg, BlockQueue.size, own, List.length_nil, ne_eq, not_true_eq_false, ↓reduceIte,
    BlockQueue.takeNonBlock, shared, null]

/-- What one `popMsg` does when no queued message has a null payload. -/
theorem popMsg_cases {context after : VmContext} {serviceQueue queueAfter : BlockQueue Mail}
    {result : Mail} (valid : serviceQueue.Valid)
    (popped : context.popMsg serviceQueue = some (result, after, queueAfter)) :
    (∃ rest, context.msgQueue_.queue_ = result :: rest ∧ queueAfter = serviceQueue ∧
      after = { context with bIdle := false, msgQueue_ := { queue_ := rest } }) ∨
    (∃ rest, context.msgQueue_.queue_ = [] ∧ serviceQueue.queue_ = result :: rest ∧
      queueAfter = { queue_ := rest } ∧ after = { context with bIdle := false }) ∨
    (context.msgQueue_.queue_ = [] ∧ serviceQueue.queue_ = [] ∧ result = default ∧
      queueAfter = serviceQueue ∧ after = { context with bIdle := true }) := by
  cases own : context.msgQueue_.queue_ with
  | cons mail rest =>
      rw [context.popMsg_own serviceQueue mail rest own] at popped
      cases popped
      exact Or.inl ⟨rest, rfl, rfl, rfl⟩
  | nil =>
      cases shared : serviceQueue.queue_ with
      | cons mail rest =>
          have front : mail.msg.data ≠ none := valid mail (shared ▸ List.mem_cons_self)
          rw [context.popMsg_service serviceQueue mail rest own shared front] at popped
          cases popped
          exact Or.inr (Or.inl ⟨rest, rfl, rfl, rfl, rfl⟩)
      | nil =>
          rw [context.popMsg_empty serviceQueue own shared] at popped
          cases popped
          exact Or.inr (Or.inr ⟨rfl, rfl, rfl, rfl, rfl⟩)

end VmContext

end EasyLua
