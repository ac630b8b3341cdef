import EasyLua.Foundation.Machine
import EasyLua.Service.Context
import Mathlib.Logic.Function.Basic

/-!
# The inside of a VM context

`cVmContext` with its `mutex_`, one step at a time. `pushMsg`, `popMsg` and `isIdle` may
be called by any number of threads; each call locks `mutex_`, and every use of a
`cBlockQueue` inside it is one step under the queue's own mutex. The shared queue of the
service belongs to everybody and may change at any time.
-/

namespace EasyLua

namespace Monitor

/-- The next step of a `pushMsg`. -/
inductive PushStep
  | lock
  | clearIdle
  | put
  | asyncSend
  | unlock
  deriving DecidableEq

/-- The next step of a `popMsg`. -/
inductive PopStep
  | lock
  /-- `msgQueue_.size()`. -/
  | size
  /-- `bIdle = false` before `take`. -/
  | clearIdle
  | take
  /-- In `cv_.wait`, which `take` has entered with an empty queue. -/
  | wait
  /-- `service->msgQueue.takeNonBlock()`. -/
  | takeNonBlock
  /-- The test of `msg.data` and the assignment to `bIdle`. -/
  | setIdle (mail : Mail)
  | unlock (result : Mail)
  deriving DecidableEq

/-- The next step of an `isIdle`. -/
inductive IdleStep
  | lock
  | read
  | unlock (result : Bool)
  deriving DecidableEq

/-- Where a thread stands. -/
inductive Place
  | outside
  | pushMsg (mail : Mail) (next : PushStep)
  | popMsg (next : PopStep)
  | isIdle (next : IdleStep)
  deriving DecidableEq

variable (Thread : Type)

/-- The context, the holder of its `mutex_`, the shared queue of its service and the
threads. The last three fields record the history: the messages put into `msgQueue_`,
those that `take` has returned from it, and the context as it was when `mutex_` was
last locked. -/
structure World where
  context : VmContext
  mutex_ : Option Thread
  serviceQueue : BlockQueue Mail
  place : Thread → Place
  pushed : List Mail
  taken : List Mail
  locked : VmContext

/-- One step. -/
inductive Event
  | callPushMsg (thread : Thread) (mail : Mail)
  | callPopMsg (thread : Thread)
  | callIsIdle (thread : Thread)
  /-- A thread takes the next step of its call. -/
  | proceed (thread : Thread)
  /-- Somebody else uses the shared queue of the service. -/
  | useServiceQueue (queue : BlockQueue Mail)

variable {Thread} [DecidableEq Thread]

/-- A thread gets to a place. -/
def World.goto (world : World Thread) (thread : Thread) (place : Place) : World Thread :=
  { world with place := Function.update world.place thread place }

/-- A thread outside of all calls starts one. -/
def World.enter (world : World Thread) (thread : Thread) (place : Place) :
    Option (World Thread) :=
  if world.place thread = .outside then some (world.goto thread place) else none

/-- Lock `mutex_`, or wait for it. -/
def World.lock (world : World Thread) (thread : Thread) (place : Place) :
    Option (World Thread) :=
  match world.mutex_ with
  | none =>
      some ({ world with mutex_ := some thread, locked := world.context }.goto thread place)
  | some _ => none

/-- Unlock `mutex_` and return. -/
def World.unlock (world : World Thread) (thread : Thread) : World Thread :=
  { world with mutex_ := none }.goto thread .outside

/-- The steps of `cVmContext::pushMsg`. -/
def pushStep (world : World Thread) (thread : Thread) (mail : Mail) :
    PushStep → Option (World Thread)
  | .lock => world.lock thread (.pushMsg mail .clearIdle)
  | .clearIdle =>
      some ({ world with context := { world.context with bIdle := false } }.goto thread
        (.pushMsg mail .put))
  | .put =>
      some ({ world with
        context := { world.context with msgQueue_ := world.context.msgQueue_.put mail }
        pushed := world.pushed ++ [mail] }.goto thread (.pushMsg mail .asyncSend))
  | .asyncSend =>
      some ({ world with context := { world.context with asyncPending := true } }.goto thread
        (.pushMsg mail .unlock))
  | .unlock => some (world.unlock thread)

/-- The steps of `cVmContext::popMsg`. A thread in `cv_.wait` goes on when the queue has
been filled. -/
def popStep (world : World Thread) (thread : Thread) : PopStep → Option (World Thread)
  | .lock => world.lock thread (.popMsg .size)
  | .size =>
      if world.context.msgQueue_.size ≠ 0 then some (world.goto thread (.popMsg .clearIdle))
      else some (world.goto thread (.popMsg .takeNonBlock))
  | .clearIdle =>
      some ({ world with context := { world.context with bIdle := false } }.goto thread
        (.popMsg .take))
  | .take =>
      match world.context.msgQueue_.take with
      | some (mail, rest) =>
          some ({ world with
            context := { world.context with msgQueue_ := rest }
            taken := world.taken ++ [mail] }.goto thread (.popMsg (.unlock mail)))
      | none => some (world.goto thread (.popMsg .wait))
  | .wait =>
      if world.context.msgQueue_.size ≠ 0 then some (world.goto thread (.popMsg .take))
      else none
  | .takeNonBlock =>
      let (mail, rest) := world.serviceQueue.takeNonBlock
      some ({ world with serviceQueue := rest }.goto thread (.popMsg (.setIdle mail)))
  | .setIdle mail =>
      if mail.msg.data ≠ none then
        some ({ world with context := { world.context with bIdle := false } }.goto thread
          (.popMsg (.unlock mail)))
      else
        some ({ world with context := { world.context with bIdle := true } }.goto thread
          (.popMsg (.unlock default)))
  | .unlock _ => some (world.unlock thread)

/-- The steps of `cVmContext::isIdle`. -/
def idleStep (world : World Thread) (thread : Thread) : IdleStep → Option (World Thread)
  | .lock => world.lock thread (.isIdle .read)
  | .read => some (world.goto thread (.isIdle (.unlock world.context.isIdle)))
  | .unlock _ => some (world.unlock thread)

/-- One step; no result when the event is not enabled. -/
def step (world : World Thread) : Event Thread → Option (World Thread)
  | .callPushMsg thread mail => world.enter thread (.pushMsg mail .lock)
  | .callPopMsg thread => world.enter thread (.popMsg .lock)
  | .callIsIdle thread => world.enter thread (.isIdle .lock)
  | .proceed thread =>
      match world.place thread with
      | .outside => none
      | .pushMsg mail next => pushStep world thread mail next
      | .popMsg next => popStep world thread next
      | .isIdle next => idleStep world thread next
  | .useServiceQueue queue => some { world with serviceQueue := queue }

/-- The threads that use one context. -/
def machine (Thread : Type) [DecidableEq Thread] : Machine (World Thread) (Event Thread) where
  init :=
    { context := {}, mutex_ := none, serviceQueue := {}, place := fun _ => .outside
      pushed := [], taken := [], locked := {} }
  step := step

/-- The thread is between locking and unlocking `mutex_`. -/
def Place.Inside : Place → Prop
  | .outside => False
  | .pushMsg _ next => next ≠ .lock
  | .popMsg next => next ≠ .lock
  | .isIdle next => next ≠ .lock

/-- What the holder of `mutex_` can rely on at its place: how far the context has got from
the state in which it was locked, as far as it matters for what follows. -/
def Place.Holds (locked context : VmContext) : Place → Prop
  | .outside => True
  | .pushMsg _ .lock => True
  | .pushMsg _ .clearIdle => context = locked
  | .pushMsg _ .put => context = { locked with bIdle := false }
  | .pushMsg mail .asyncSend =>
      context = { locked with bIdle := false, msgQueue_ := locked.msgQueue_.put mail }
  | .pushMsg mail .unlock => context = locked.pushMsg mail
  | .popMsg .lock => True
  | .popMsg .size => context = locked
  | .popMsg .clearIdle => context = locked ∧ context.msgQueue_.queue_ ≠ []
  | .popMsg .take => context = { locked with bIdle := false } ∧ context.msgQueue_.queue_ ≠ []
  | .popMsg .wait => False
  | .popMsg .takeNonBlock => context = locked ∧ context.msgQueue_.queue_ = []
  | .popMsg (.setIdle mail) =>
      context = locked ∧ context.msgQueue_.queue_ = [] ∧
        ∃ queue : BlockQueue Mail, queue.takeNonBlock.1 = mail
  | .popMsg (.unlock result) =>
      ∃ queue rest, locked.popMsg queue = some (result, context, rest)
  | .isIdle .lock => True
  | .isIdle .read => context = locked
  | .isIdle (.unlock result) => context = locked ∧ result = locked.isIdle

/-- An idle context has no message of its own. -/
def IdleEmpty (context : VmContext) : Prop :=
  context.bIdle = true → context.msgQueue_.queue_ = []

/-- Only the holder of `mutex_` is inside a call, it finds the context as far as its
call has got, and an idle context has no message of its own whenever `mutex_` was free.
The messages pushed are those taken and then those still queued. -/
structure Invariant (world : World Thread) : Prop where
  inside : ∀ thread, (world.place thread).Inside → world.mutex_ = some thread
  holds : ∀ thread, (world.place thread).Inside →
    (world.place thread).Holds world.locked world.context
  free : world.mutex_ = none → IdleEmpty world.context
  locked : world.mutex_ ≠ none → IdleEmpty world.locked
  fifo : world.pushed = world.taken ++ world.context.msgQueue_.queue_

omit [DecidableEq Thread] in
theorem invariant_initial :
    Invariant
      ({ context := {}, mutex_ := none, serviceQueue := {}, place := fun _ => .outside
         pushed := [], taken := [], locked := {} } : World Thread) where
  inside := fun _ inside => inside.elim
  holds := fun _ inside => inside.elim
  free := fun _ _ => rfl
  locked := fun held => absurd rfl held
  fifo := rfl

/-- With an empty queue of its own, `popMsg` does what the test of `msg.data` says. -/
theorem popMsg_of_own_empty (context : VmContext) (queue : BlockQueue Mail)
    (own : context.msgQueue_.queue_ = []) :
    context.popMsg queue =
      if queue.takeNonBlock.1.msg.data ≠ none then
        some (queue.takeNonBlock.1, { context with bIdle := false }, queue.takeNonBlock.2)
      else some (default, { context with bIdle := true }, queue.takeNonBlock.2) := by
  simp only [VmContext.popMsg, BlockQueue.size, own, List.length_nil, ne_eq, not_true_eq_false,
    ↓reduceIte]

theorem IdleEmpty.pushMsg (context : VmContext) (mail : Mail) :
    IdleEmpty (context.pushMsg mail) := nofun

/-- `popMsg` turns a context idle only when it has no message of its own. -/
theorem IdleEmpty.of_popMsg {context after : VmContext} {queue rest : BlockQueue Mail}
    {result : Mail} (popped : context.popMsg queue = some (result, after, rest)) :
    IdleEmpty after := by
  cases own : context.msgQueue_.queue_ with
  | cons mail more =>
      rw [context.popMsg_own queue mail more own] at popped
      cases popped
      exact nofun
  | nil =>
      rw [popMsg_of_own_empty context queue own] at popped
      split at popped
      · cases popped
        exact nofun
      · cases popped
        exact fun _ => own

variable {world next : World Thread}

/-- The holder of `mutex_` goes on to another place inside its call. -/
theorem Invariant.advance (invariant : Invariant world) {thread : Thread}
    (held : world.mutex_ = some thread) {context : VmContext} {pushed taken : List Mail}
    {place : Place} (holds : place.Holds world.locked context)
    (fifo : pushed = taken ++ context.msgQueue_.queue_) (serviceQueue : BlockQueue Mail) :
    Invariant ({ world with context, serviceQueue, pushed, taken }.goto thread place) := by
  have alone : ∀ other, other ≠ thread → ¬ (world.place other).Inside := by
    intro other different within
    have holder := invariant.inside other within
    rw [held] at holder
    exact different (Option.some.inj holder).symm
  refine ⟨fun other within => ?_, fun other within => ?_, fun free => ?_, invariant.locked, fifo⟩
  · by_cases same : other = thread
    · rw [same]
      exact held
    · simp only [World.goto, Function.update_of_ne same] at within
      exact absurd within (alone other same)
  · by_cases same : other = thread
    · subst other
      simp only [World.goto, Function.update_self]
      exact holds
    · simp only [World.goto, Function.update_of_ne same] at within
      exact absurd within (alone other same)
  · change world.mutex_ = none at free
    rw [held] at free
    cases free

/-- The holder of `mutex_` returns. -/
theorem Invariant.unlock (invariant : Invariant world) {thread : Thread}
    (held : world.mutex_ = some thread) (idle : IdleEmpty world.context) :
    Invariant (world.unlock thread) := by
  have alone : ∀ other, ¬ ((world.unlock thread).place other).Inside := by
    intro other within
    simp only [World.unlock, World.goto] at within
    by_cases same : other = thread
    · subst other
      rw [Function.update_self] at within
      exact within
    · rw [Function.update_of_ne same] at within
      have holder := invariant.inside other within
      rw [held] at holder
      exact same (Option.some.inj holder).symm
  exact ⟨fun other within => absurd within (alone other),
    fun other within => absurd within (alone other), fun _ => idle,
    fun held => absurd rfl held, invariant.fifo⟩

/-- A thread gets `mutex_`. -/
theorem Invariant.lock (invariant : Invariant world) {thread : Thread} {place : Place}
    (holds : place.Holds world.context world.context)
    (stepped : world.lock thread place = some next) : Invariant next := by
  unfold World.lock at stepped
  split at stepped
  · rename_i free
    cases stepped
    have alone : ∀ other, ¬ (world.place other).Inside := by
      intro other within
      have holder := invariant.inside other within
      rw [free] at holder
      cases holder
    refine ⟨fun other within => ?_, fun other within => ?_, nofun, fun _ => invariant.free free,
      invariant.fifo⟩
    · by_cases same : other = thread
      · rw [same]
        rfl
      · simp only [World.goto, Function.update_of_ne same] at within
        exact absurd within (alone other)
    · by_cases same : other = thread
      · subst other
        simp only [World.goto, Function.update_self]
        exact holds
      · simp only [World.goto, Function.update_of_ne same] at within
        exact absurd within (alone other)
  · cases stepped

/-- A thread outside of all calls starts one. -/
theorem Invariant.enter (invariant : Invariant world) {thread : Thread} {place : Place}
    (waits : ¬ place.Inside) (stepped : world.enter thread place = some next) :
    Invariant next := by
  unfold World.enter at stepped
  split at stepped
  · cases stepped
    have kept : ∀ other, ((world.goto thread place).place other).Inside →
        (world.goto thread place).place other = world.place other := by
      intro other within
      by_cases same : other = thread
      · subst other
        simp only [World.goto, Function.update_self] at within
        exact absurd within waits
      · simp only [World.goto, Function.update_of_ne same]
    refine ⟨fun other within => ?_, fun other within => ?_, invariant.free, invariant.locked,
      invariant.fifo⟩
    · rw [kept other within] at within
      exact invariant.inside other within
    · have same := kept other within
      rw [same] at within ⊢
      exact invariant.holds other within
  · cases stepped

omit [DecidableEq Thread] in
theorem Invariant.holds_at (invariant : Invariant world) {thread : Thread} {place : Place}
    (stands : world.place thread = place) (inside : place.Inside) :
    place.Holds world.locked world.context := by
  subst stands
  exact invariant.holds thread inside

/-- Each step of a `pushMsg` brings the context closer to what the whole call makes of it. -/
theorem Invariant.pushStep (invariant : Invariant world) {thread : Thread} {mail : Mail}
    {step : PushStep} (stands : world.place thread = .pushMsg mail step)
    (stepped : pushStep world thread mail step = some next) : Invariant next := by
  have inside : step ≠ .lock → world.mutex_ = some thread := fun later =>
    invariant.inside thread (by rw [stands]; exact later)
  have holds : step ≠ .lock → (Place.pushMsg mail step).Holds world.locked world.context :=
    fun later => invariant.holds_at stands later
  cases step with
  | lock =>
      have locks : world.lock thread (.pushMsg mail .clearIdle) = some next := stepped
      refine invariant.lock ?_ locks
      rfl
  | clearIdle =>
      cases stepped
      have unchanged : world.context = world.locked := holds nofun
      refine invariant.advance (inside nofun) ?_ ?_ _
      · rw [unchanged]
        rfl
      · exact invariant.fifo
  | put =>
      cases stepped
      have cleared : world.context = { world.locked with bIdle := false } := holds nofun
      refine invariant.advance (inside nofun) ?_ ?_ _
      · rw [cleared]
        rfl
      · simp only [BlockQueue.put_queue_, invariant.fifo, List.append_assoc]
  | asyncSend =>
      cases stepped
      have filled : world.context = { world.locked with
          bIdle := false, msgQueue_ := world.locked.msgQueue_.put mail } := holds nofun
      refine invariant.advance (inside nofun) ?_ ?_ _
      · rw [filled]
        rfl
      · exact invariant.fifo
  | unlock =>
      cases stepped
      have done : world.context = world.locked.pushMsg mail := holds nofun
      exact invariant.unlock (inside nofun) (done ▸ IdleEmpty.pushMsg _ _)

/-- Each step of a `popMsg` brings the context closer to what the whole call makes of it. -/
theorem Invariant.popStep (invariant : Invariant world) {thread : Thread} {step : PopStep}
    (stands : world.place thread = .popMsg step)
    (stepped : popStep world thread step = some next) : Invariant next := by
  have inside : step ≠ .lock → world.mutex_ = some thread := fun later =>
    invariant.inside thread (by rw [stands]; exact later)
  have holds : step ≠ .lock → (Place.popMsg step).Holds world.locked world.context :=
    fun later => invariant.holds_at stands later
  cases step with
  | lock =>
      have locks : world.lock thread (.popMsg .size) = some next := stepped
      refine invariant.lock ?_ locks
      rfl
  | size =>
      have unchanged : world.context = world.locked := holds nofun
      change (if world.context.msgQueue_.size ≠ 0 then _ else _) = _ at stepped
      split at stepped
      · rename_i filled
        cases stepped
        refine invariant.advance (inside nofun) ?_ invariant.fifo _
        exact ⟨unchanged, fun empty => filled (congrArg List.length empty)⟩
      · rename_i empty
        cases stepped
        refine invariant.advance (inside nofun) ?_ invariant.fifo _
        exact ⟨unchanged, List.length_eq_zero_iff.mp (not_not.mp empty)⟩
  | clearIdle =>
      cases stepped
      obtain ⟨unchanged, filled⟩ := holds nofun
      refine invariant.advance (inside nofun) ?_ ?_ _
      · exact ⟨by rw [unchanged], filled⟩
      · exact invariant.fifo
  | take =>
      obtain ⟨cleared, filled⟩ := holds nofun
      obtain ⟨mail, rest, queue⟩ := List.exists_cons_of_ne_nil filled
      unfold Monitor.popStep at stepped
      simp only at stepped
      rw [BlockQueue.take_of_cons queue] at stepped
      cases stepped
      refine invariant.advance (inside nofun) ?_ ?_ _
      · have own : world.locked.msgQueue_.queue_ = mail :: rest := by
          rw [← queue, cleared]
        refine ⟨{}, {}, ?_⟩
        rw [world.locked.popMsg_own _ mail rest own, cleared]
      · rw [invariant.fifo, queue, List.append_assoc]
        rfl
  | wait => exact (holds nofun).elim
  | takeNonBlock =>
      obtain ⟨unchanged, empty⟩ := holds nofun
      cases stepped
      refine invariant.advance (inside nofun) ?_ invariant.fifo _
      exact ⟨unchanged, empty, _, rfl⟩
  | setIdle mail =>
      obtain ⟨unchanged, empty, queue, front⟩ := holds nofun
      have popped := popMsg_of_own_empty world.locked queue (unchanged ▸ empty)
      rw [front] at popped
      simp only [Monitor.popStep] at stepped
      split at stepped
      · rename_i payload
        cases stepped
        rw [if_pos payload] at popped
        refine invariant.advance (inside nofun) ?_ ?_ _
        · exact ⟨queue, _, by rw [unchanged, popped]⟩
        · exact invariant.fifo
      · rename_i null
        cases stepped
        rw [if_neg null] at popped
        refine invariant.advance (inside nofun) ?_ ?_ _
        · exact ⟨queue, _, by rw [unchanged, popped]⟩
        · exact invariant.fifo
  | unlock result =>
      cases stepped
      obtain ⟨queue, rest, popped⟩ := holds nofun
      exact invariant.unlock (inside nofun) (IdleEmpty.of_popMsg popped)

theorem Invariant.idleStep (invariant : Invariant world) {thread : Thread} {step : IdleStep}
    (stands : world.place thread = .isIdle step)
    (stepped : idleStep world thread step = some next) : Invariant next := by
  have inside : step ≠ .lock → world.mutex_ = some thread := fun later =>
    invariant.inside thread (by rw [stands]; exact later)
  have holds : step ≠ .lock → (Place.isIdle step).Holds world.locked world.context :=
    fun later => invariant.holds_at stands later
  cases step with
  | lock =>
      have locks : world.lock thread (.isIdle .read) = some next := stepped
      refine invariant.lock ?_ locks
      rfl
  | read =>
      cases stepped
      have unchanged : world.context = world.locked := holds nofun
      refine invariant.advance (inside nofun) ?_ invariant.fifo _
      exact ⟨unchanged, by rw [unchanged]⟩
  | unlock result =>
      cases stepped
      obtain ⟨unchanged, _⟩ := holds nofun
      have held := inside nofun
      have idle := invariant.locked (by rw [held]; exact nofun)
      exact invariant.unlock held (unchanged ▸ idle)

theorem Invariant.step (invariant : Invariant world) {event : Event Thread}
    (stepped : step world event = some next) : Invariant next := by
  cases event with
  | callPushMsg thread mail =>
      have enters : world.enter thread (.pushMsg mail .lock) = some next := stepped
      refine invariant.enter ?_ enters
      exact fun inside => inside rfl
  | callPopMsg thread =>
      have enters : world.enter thread (.popMsg .lock) = some next := stepped
      refine invariant.enter ?_ enters
      exact fun inside => inside rfl
  | callIsIdle thread =>
      have enters : world.enter thread (.isIdle .lock) = some next := stepped
      refine invariant.enter ?_ enters
      exact fun inside => inside rfl
  | proceed thread =>
      simp only [Monitor.step] at stepped
      split at stepped
      · cases stepped
      · exact invariant.pushStep ‹_› stepped
      · exact invariant.popStep ‹_› stepped
      · exact invariant.idleStep ‹_› stepped
  | useServiceQueue queue =>
      cases stepped
      exact { invariant with }

theorem invariant_of_run {events : List (Event Thread)} {world : World Thread}
    (ran : (machine Thread).run events = some world) : Invariant world :=
  (machine Thread).run_invariant Invariant invariant_initial
    (fun _ _ _ invariant stepped => invariant.step stepped) events world ran

/-- **A call is one step.** The thread that is about to unlock `mutex_` has made of the
context what the whole call makes of it. -/
theorem atomic_of_run {events : List (Event Thread)} {world : World Thread}
    (ran : (machine Thread).run events = some world) (thread : Thread) :
    (∀ mail, world.place thread = .pushMsg mail .unlock →
      world.context = world.locked.pushMsg mail) ∧
    (∀ result, world.place thread = .popMsg (.unlock result) →
      ∃ queue rest, world.locked.popMsg queue = some (result, world.context, rest)) ∧
    (∀ result, world.place thread = .isIdle (.unlock result) →
      world.context = world.locked ∧ result = world.locked.isIdle) := by
  have invariant := invariant_of_run ran
  refine ⟨fun mail stands => ?_, fun result stands => ?_, fun result stands => ?_⟩
  · exact invariant.holds_at stands nofun
  · exact invariant.holds_at stands nofun
  · exact invariant.holds_at stands nofun

/-- **An idle VM has no mail of its own, and `popMsg` never blocks.** Whenever `mutex_` is
free an idle context has an empty queue; a thread that has reached `take` returns the
oldest message that was pushed and not yet taken; and no thread ever waits in `take`. -/
theorem idle_empty_and_take_ready {events : List (Event Thread)} {world : World Thread}
    (ran : (machine Thread).run events = some world) :
    (world.mutex_ = none → world.context.bIdle = true →
      world.context.msgQueue_.queue_ = []) ∧
    (∀ thread, world.place thread = .popMsg .take →
      ∃ mail rest next, world.pushed = world.taken ++ mail :: rest ∧
        world.context.msgQueue_.queue_ = mail :: rest ∧
        step world (.proceed thread) = some next ∧
        next.place thread = .popMsg (.unlock mail) ∧ next.taken = world.taken ++ [mail]) ∧
    ∀ thread, world.place thread ≠ .popMsg .wait := by
  have invariant := invariant_of_run ran
  refine ⟨invariant.free, fun thread stands => ?_, fun thread stands => ?_⟩
  · obtain ⟨mail, rest, queue⟩ :=
      List.exists_cons_of_ne_nil (invariant.holds_at stands nofun).2
    have stepped : step world (.proceed thread) =
        some ({ world with
          context := { world.context with msgQueue_ := { queue_ := rest } }
          taken := world.taken ++ [mail] }.goto thread (.popMsg (.unlock mail))) := by
      simp only [step, stands, popStep, BlockQueue.take_of_cons queue]
    refine ⟨mail, rest, _, ?_, queue, stepped, ?_, rfl⟩
    · rw [invariant.fifo, queue]
    · simp only [World.goto, Function.update_self]
  · exact invariant.holds_at stands nofun

/-- A sender pushes while the consumer, which has found the queue filled, holds the lock. -/
def pushDuringPop : List (Event Bool) :=
  [.callPushMsg true {}, .proceed true, .proceed true, .proceed true, .proceed true,
    .proceed true, .callPopMsg false, .proceed false, .callPushMsg true { serial := 1 },
    .proceed false, .proceed false]

theorem idle_empty_and_take_ready_pushDuringPop :
    ∃ world, (machine Bool).run pushDuringPop = some world ∧
      world.place false = .popMsg .take ∧
      (∃ mail rest next, world.pushed = world.taken ++ mail :: rest ∧
        world.context.msgQueue_.queue_ = mail :: rest ∧
        step world (.proceed false) = some next ∧
        next.place false = .popMsg (.unlock mail) ∧ next.taken = world.taken ++ [mail]) ∧
      ∀ thread, world.place thread ≠ .popMsg .wait := by
  obtain ⟨world, ran, stands⟩ : ∃ world, (machine Bool).run pushDuringPop = some world ∧
      world.place false = .popMsg .take := ⟨_, rfl, rfl⟩
  obtain ⟨_, ready, noWait⟩ := idle_empty_and_take_ready ran
  exact ⟨world, ran, stands, ready false stands, noWait⟩

end Monitor

end EasyLua
