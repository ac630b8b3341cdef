import EasyLua.Foundation.Machine
import EasyLua.Foundation.WaitSet
import EasyLua.Service.Context

/-!
# The blocking queue

`cBlockQueue` with all its operations and any number of threads. Each operation runs under
`mutex_`; `take` and `takeTimeOut` give it up while they wait on `cv_` for an item, and look
at the queue again whenever they have been woken and have got it back. Another thread may have
been faster by then.
-/

namespace EasyLua

namespace BlockingQueue

variable (Thread T : Type)

/-- A call that waits on `cv_`: of `takeTimeOut`, or of `take`. -/
structure Call where
  thread : Thread
  timed : Bool
  deriving DecidableEq

/-- The queue, the calls that wait, and what calls have returned, in the order in which they
left the mutex. No item stands for `T()`. -/
structure World where
  queue : BlockQueue T
  cv_ : WaitSet (Call Thread)
  returned : List (Thread × Option T)

/-- What happens under `mutex_`, and the waking of a call. -/
inductive Event
  /-- `put`, whose `notify_one` wakes this call. -/
  | put (thread : Thread) (x : T) (notified : Option (Call Thread))
  | takeNonBlock (thread : Thread)
  | take (thread : Thread)
  | takeTimeOut (thread : Thread)
  /-- The system wakes a call without a notification, or because its time is over. -/
  | wake (call : Call Thread)
  /-- A woken call has got the mutex back. Its time may be over. -/
  | resume (call : Call Thread) (timeout : Bool)

variable {Thread T}

namespace World

variable (world : World Thread T)

/-- The thread does not wait. -/
def Outside (thread : Thread) : Prop := ∀ call ∈ world.cv_.waiting, call.thread ≠ thread

/-- A call returns. -/
def return_ (queue : BlockQueue T) (thread : Thread) (result : Option T) : World Thread T :=
  { world with queue := queue, returned := world.returned ++ [(thread, result)] }

/-- A call looks at the queue: it returns the front, or does something else. -/
def takeOr (thread : Thread) (otherwise : World Thread T) : World Thread T :=
  match world.queue.take with
  | some (front, rest) => world.return_ rest thread (some front)
  | none => otherwise

/-- A call goes to sleep on `cv_`. -/
def sleep (call : Call Thread) : World Thread T := { world with cv_ := world.cv_.sleep call }

instance [DecidableEq Thread] (thread : Thread) : Decidable (world.Outside thread) :=
  inferInstanceAs (Decidable (∀ call ∈ world.cv_.waiting, call.thread ≠ thread))

end World

variable [DecidableEq Thread]

/-- One event; no result when it is not enabled. -/
def step (world : World Thread T) : Event Thread T → Option (World Thread T)
  | .put thread x notified =>
      if world.Outside thread then
        (world.cv_.notifyOne notified).map fun cv_ =>
          { world with queue := world.queue.put x, cv_ := cv_ }
      else none
  | .takeNonBlock thread =>
      if world.Outside thread then
        some (world.takeOr thread (world.return_ world.queue thread none))
      else none
  | .take thread =>
      if world.Outside thread then
        some (world.takeOr thread (world.sleep { thread, timed := false }))
      else none
  | .takeTimeOut thread =>
      if world.Outside thread then
        some (world.takeOr thread (world.sleep { thread, timed := true }))
      else none
  | .wake call => (world.cv_.wake call).map fun cv_ => { world with cv_ := cv_ }
  | .resume call timeout =>
      if call ∈ world.cv_.woken then
        let world := { world with cv_ := world.cv_.leave call }
        some (world.takeOr call.thread
          (if call.timed && timeout then world.return_ world.queue call.thread none
           else world.sleep call))
      else none

/-- Any number of threads with one queue. -/
def machine (Thread T : Type) [DecidableEq Thread] :
    Machine (World Thread T) (Event Thread T) where
  init := { queue := {}, cv_ := {}, returned := [] }
  step := step

/-- The item that an event puts into the queue. -/
def Event.item : Event Thread T → Option T
  | .put _ x _ => some x
  | _ => none

/-- The items that have been put, in their order. -/
def puts (events : List (Event Thread T)) : List T := events.filterMap Event.item

/-- The items that have been returned, in their order. -/
def World.taken (world : World Thread T) : List T := world.returned.filterMap Prod.snd

/-- The items leave the queue in the order in which they have been put; while calls sleep,
there is a woken call for each item that is left; and a thread waits in one call only. -/
structure Sound (events : List (Event Thread T)) (world : World Thread T) : Prop where
  order : puts events = world.taken ++ world.queue.queue_
  covers : world.cv_.Covers world.queue.size
  distinct : (world.cv_.waiting.map Call.thread).Nodup

variable {events : List (Event Thread T)} {world next : World Thread T}

omit [DecidableEq Thread] in
theorem puts_append (events : List (Event Thread T)) (event : Event Thread T) :
    puts (events ++ [event]) = puts events ++ event.item.toList := by
  unfold puts
  rw [List.filterMap_append]
  cases event <;> rfl

omit [DecidableEq Thread] in
/-- What a look at the queue does. -/
theorem takeOr_cases (world : World Thread T) (thread : Thread) (otherwise : World Thread T) :
    (∃ front rest, world.queue.queue_ = front :: rest ∧
      world.takeOr thread otherwise = world.return_ { queue_ := rest } thread (some front)) ∨
    (world.queue.queue_ = [] ∧ world.takeOr thread otherwise = otherwise) := by
  unfold World.takeOr BlockQueue.take
  cases world.queue.queue_ with
  | nil => exact Or.inr ⟨rfl, rfl⟩
  | cons front rest => exact Or.inl ⟨front, rest, rfl, rfl⟩

omit [DecidableEq Thread] in
/-- An event that puts nothing, after which as many items are left. -/
theorem Sound.keep (sound : Sound events world) {event : Event Thread T}
    (noItem : event.item = none) (taken : next.taken = world.taken)
    (queue : next.queue = world.queue) (covers : next.cv_.Covers next.queue.size)
    (distinct : (next.cv_.waiting.map Call.thread).Nodup) : Sound (events ++ [event]) next where
  order := by
    rw [puts_append, noItem, taken, queue, Option.toList_none, List.append_nil, sound.order]
  covers := covers
  distinct := distinct

omit [DecidableEq Thread] in
/-- A call returns the front of the queue. -/
theorem Sound.front (sound : Sound events world) {event : Event Thread T}
    (noItem : event.item = none) {front : T} {rest : List T} {thread : Thread}
    (filled : world.queue.queue_ = front :: rest) (cv_ : WaitSet (Call Thread))
    (covers : cv_.Covers rest.length) (distinct : (cv_.waiting.map Call.thread).Nodup) :
    Sound (events ++ [event])
      { queue := { queue_ := rest }, cv_ := cv_
        returned := world.returned ++ [(thread, some front)] } where
  order := by
    have taken : (world.returned ++ [(thread, some front)]).filterMap Prod.snd =
        world.taken ++ [front] := List.filterMap_append
    rw [puts_append, noItem, Option.toList_none, List.append_nil, sound.order, filled]
    change _ = (world.returned ++ [(thread, some front)]).filterMap Prod.snd ++ rest
    rw [taken, List.append_assoc]
    rfl
  covers := covers
  distinct := distinct

omit [DecidableEq Thread] in
theorem taken_return_none (world : World Thread T) (queue : BlockQueue T) (thread : Thread) :
    (world.return_ queue thread none).taken = world.taken := by
  unfold World.taken World.return_
  rw [List.filterMap_append]
  exact List.append_nil _

omit [DecidableEq Thread] in
/-- A call that begins: it returns the front at once, or does something else. -/
theorem Sound.begin (sound : Sound events world) {event : Event Thread T}
    (noItem : event.item = none) (thread : Thread) {otherwise : World Thread T}
    (empty : world.queue.queue_ = [] → Sound (events ++ [event]) otherwise) :
    Sound (events ++ [event]) (world.takeOr thread otherwise) := by
  rcases takeOr_cases world thread otherwise with ⟨front, rest, filled, same⟩ | ⟨none_, same⟩
  · rw [same]
    refine sound.front noItem filled _ ?_ sound.distinct
    have covers := sound.covers
    rw [BlockQueue.size, filled] at covers
    exact covers.imp_right fun enough => (Nat.le_succ _).trans enough
  · rw [same]
    exact empty none_

omit [DecidableEq Thread] in
/-- A call falls asleep over an empty queue. -/
theorem Sound.sleep (sound : Sound events world) {event : Event Thread T}
    (noItem : event.item = none) (call : Call Thread) (outside : world.Outside call.thread)
    (empty : world.queue.queue_ = []) : Sound (events ++ [event]) (world.sleep call) := by
  refine sound.keep noItem rfl rfl ?_ ?_
  · have none_ : (world.sleep call).queue.size = 0 := congrArg List.length empty
    rw [none_]
    exact WaitSet.covers_zero _
  · refine List.nodup_cons.mpr ⟨fun member => ?_, sound.distinct⟩
    obtain ⟨other, waits, same⟩ := List.mem_map.mp member
    exact outside other waits same

theorem Sound.step (sound : Sound events world) {event : Event Thread T}
    (stepped : step world event = some next) : Sound (events ++ [event]) next := by
  cases event with
  | put thread x notified =>
      simp only [BlockingQueue.step, Option.ite_none_right_eq_some] at stepped
      obtain ⟨cv_, woken, rfl⟩ := Option.map_eq_some_iff.mp stepped.2
      refine ⟨?_, ?_, ?_⟩
      · rw [puts_append, sound.order, List.append_assoc]
        rfl
      · have size : (world.queue.put x).size = world.queue.size + 1 := List.length_append
        change cv_.Covers (world.queue.put x).size
        rw [size]
        exact sound.covers.notifyOne woken
      · exact ((WaitSet.waiting_notifyOne woken).map _).nodup_iff.mpr sound.distinct
  | takeNonBlock thread =>
      simp only [BlockingQueue.step, Option.ite_none_right_eq_some] at stepped
      obtain ⟨_, ⟨⟩⟩ := stepped
      refine sound.begin rfl thread fun _ => ?_
      exact sound.keep rfl (taken_return_none ..) rfl sound.covers sound.distinct
  | take thread =>
      simp only [BlockingQueue.step, Option.ite_none_right_eq_some] at stepped
      obtain ⟨outside, ⟨⟩⟩ := stepped
      exact sound.begin rfl thread (sound.sleep rfl _ outside)
  | takeTimeOut thread =>
      simp only [BlockingQueue.step, Option.ite_none_right_eq_some] at stepped
      obtain ⟨outside, ⟨⟩⟩ := stepped
      exact sound.begin rfl thread (sound.sleep rfl _ outside)
  | wake call =>
      obtain ⟨cv_, woken, rfl⟩ := Option.map_eq_some_iff.mp stepped
      refine sound.keep rfl rfl rfl (sound.covers.wake woken) ?_
      exact ((WaitSet.waiting_wake woken).map _).nodup_iff.mpr sound.distinct
  | resume call timeout =>
      simp only [BlockingQueue.step, Option.ite_none_right_eq_some] at stepped
      obtain ⟨member, ⟨⟩⟩ := stepped
      have waits := (WaitSet.waiting_leave member).map Call.thread
      obtain ⟨gone, distinct⟩ := List.nodup_cons.mp (waits.nodup_iff.mp sound.distinct)
      have covers := sound.covers.leave member
      rcases takeOr_cases { world with cv_ := world.cv_.leave call } call.thread _ with
        ⟨front, rest, filled, same⟩ | ⟨empty, same⟩
      · rw [same]
        refine sound.front rfl filled _ ?_ distinct
        have size : world.queue.size - 1 = rest.length := by
          rw [BlockQueue.size, filled]
          rfl
        rwa [size] at covers
      · rw [same]
        have none_ : world.queue.size = 0 := congrArg List.length empty
        rw [none_] at covers
        split
        · refine sound.keep rfl (taken_return_none ..) rfl ?_ distinct
          change (world.cv_.leave call).Covers world.queue.size
          rw [none_]
          exact covers
        · refine sound.keep rfl rfl rfl ?_ (List.nodup_cons.mpr ⟨gone, distinct⟩)
          change ((world.cv_.leave call).sleep call).Covers world.queue.size
          rw [none_]
          exact WaitSet.covers_zero _

theorem sound_of_run (ran : (machine Thread T).run events = some world) : Sound events world :=
  (machine Thread T).run_history_invariant Sound
    ⟨rfl, WaitSet.covers_zero _, List.nodup_nil⟩
    (fun _ _ _ _ sound stepped => sound.step stepped) events world ran

/-- **The queue is first in, first out, and loses no wake-up.** In every run the items that
have been returned and then those in the queue are the items put, in their order. When an item
is left and calls wait, one of them has been woken, and it returns the front of the queue as
soon as it gets the mutex, unless another call takes it first. -/
theorem fifo_and_wakes (events : List (Event Thread T)) (world : World Thread T)
    (ran : (machine Thread T).run events = some world) :
    puts events = world.taken ++ world.queue.queue_ ∧
      (world.queue.queue_ ≠ [] → world.cv_.waiting ≠ [] → ∃ call ∈ world.cv_.woken,
        ∀ timeout, ∃ front rest, world.queue.queue_ = front :: rest ∧
          step world (.resume call timeout) = some
            { queue := { queue_ := rest }, cv_ := world.cv_.leave call
              returned := world.returned ++ [(call.thread, some front)] }) := by
  have sound := sound_of_run ran
  refine ⟨sound.order, fun left waits => ?_⟩
  obtain ⟨call, woken⟩ := sound.covers.exists_woken (List.length_pos_of_ne_nil left) waits
  refine ⟨call, woken, fun timeout => ?_⟩
  obtain ⟨front, rest, filled⟩ := List.exists_cons_of_ne_nil left
  refine ⟨front, rest, filled, ?_⟩
  simp only [step, if_pos woken]
  rcases takeOr_cases { world with cv_ := world.cv_.leave call } call.thread _ with
    ⟨other, others, filled', same⟩ | ⟨empty, _⟩
  · rw [same]
    cases filled.symm.trans filled'
    rfl
  · exact absurd empty left

/-- Two calls wait, an item goes to a third one, and the next item is left. -/
def stolen : List (Event Nat Nat) :=
  [.take 1, .takeTimeOut 2, .put 0 7 (some { thread := 1, timed := false }), .takeNonBlock 3,
    .put 0 8 (some { thread := 2, timed := true })]

theorem fifo_and_wakes_stolen :
    ∃ world, (machine Nat Nat).run stolen = some world ∧ world.queue.queue_ = [8] ∧
      world.cv_.waiting ≠ [] ∧ puts stolen = world.taken ++ world.queue.queue_ ∧
      (world.queue.queue_ ≠ [] → world.cv_.waiting ≠ [] → ∃ call ∈ world.cv_.woken,
        ∀ timeout, ∃ front rest, world.queue.queue_ = front :: rest ∧
          step world (.resume call timeout) = some
            { queue := { queue_ := rest }, cv_ := world.cv_.leave call
              returned := world.returned ++ [(call.thread, some front)] }) :=
  ⟨_, rfl, rfl, List.cons_ne_nil _ _, fifo_and_wakes stolen _ rfl⟩

end BlockingQueue

end EasyLua
