import Mathlib.Data.List.Perm.Basic

/-!
# The wait set of a condition variable

A thread that waits on a condition variable is asleep until it is woken, by a notification,
by the end of its time or for no reason. A woken thread waits for the mutex, and leaves when
it has got it.

A wait set covers a number of items when no thread is asleep, or at least as many threads are
woken. Whoever provides one more item and notifies one thread keeps them covered, and so does
a woken thread that leaves with an item: no notification is lost.
-/

/-- The threads that sleep and those that have been woken. -/
structure WaitSet (Thread : Type*) where
  asleep : List Thread := []
  woken : List Thread := []

namespace WaitSet

variable {Thread : Type*}

/-- All threads that wait. -/
def waiting (threads : WaitSet Thread) : List Thread := threads.asleep ++ threads.woken

/-- A thread goes to sleep. -/
def sleep (threads : WaitSet Thread) (thread : Thread) : WaitSet Thread :=
  { threads with asleep := thread :: threads.asleep }

variable [DecidableEq Thread]

/-- A thread that sleeps is woken. -/
def wake (threads : WaitSet Thread) (thread : Thread) : Option (WaitSet Thread) :=
  if thread ∈ threads.asleep then
    some { asleep := threads.asleep.erase thread, woken := thread :: threads.woken }
  else none

/-- A notification wakes one of the threads that sleep, and none if there is none. -/
def notifyOne (threads : WaitSet Thread) : Option Thread → Option (WaitSet Thread)
  | some thread => threads.wake thread
  | none => if threads.asleep = [] then some threads else none

/-- A woken thread has got the mutex. -/
def leave (threads : WaitSet Thread) (thread : Thread) : WaitSet Thread :=
  { threads with woken := threads.woken.erase thread }

/-- No thread sleeps, or at least so many threads are woken. -/
def Covers (threads : WaitSet Thread) (items : Nat) : Prop :=
  threads.asleep = [] ∨ items ≤ threads.woken.length

variable {threads next : WaitSet Thread} {thread : Thread} {items : Nat}

theorem wake_eq_some :
    threads.wake thread = some next ↔ thread ∈ threads.asleep ∧
      next = { asleep := threads.asleep.erase thread, woken := thread :: threads.woken } := by
  unfold wake
  split
  · simp only [Option.some.injEq, ‹_›, true_and, eq_comm]
  · simp only [reduceCtorEq, ‹_›, false_and]

theorem notifyOne_none :
    threads.notifyOne none = some next ↔ threads.asleep = [] ∧ next = threads := by
  simp only [notifyOne]
  split
  · simp only [Option.some.injEq, ‹_›, true_and, eq_comm]
  · simp only [reduceCtorEq, ‹_›, false_and]

omit [DecidableEq Thread] in
theorem covers_zero (threads : WaitSet Thread) : threads.Covers 0 := Or.inr (Nat.zero_le _)

theorem Covers.wake (covers : threads.Covers items) (woken : threads.wake thread = some next) :
    next.Covers items := by
  obtain ⟨member, rfl⟩ := wake_eq_some.mp woken
  rcases covers with awake | enough
  · rw [awake] at member
    cases member
  · exact Or.inr (Nat.le_succ_of_le enough)

/-- One more item and one more notification. -/
theorem Covers.notifyOne (covers : threads.Covers items) {notified : Option Thread}
    (woken : threads.notifyOne notified = some next) : next.Covers (items + 1) := by
  cases notified with
  | none =>
      obtain ⟨awake, rfl⟩ := notifyOne_none.mp woken
      exact Or.inl awake
  | some thread =>
      obtain ⟨member, rfl⟩ := wake_eq_some.mp woken
      rcases covers with awake | enough
      · rw [awake] at member
        cases member
      · exact Or.inr (Nat.succ_le_succ enough)

/-- A woken thread leaves with one of the items. -/
theorem Covers.leave (covers : threads.Covers items) (member : thread ∈ threads.woken) :
    (threads.leave thread).Covers (items - 1) := by
  rcases covers with awake | enough
  · exact Or.inl awake
  · refine Or.inr ?_
    change items - 1 ≤ (threads.woken.erase thread).length
    rw [List.length_erase_of_mem member]
    exact Nat.sub_le_sub_right enough 1

omit [DecidableEq Thread] in
/-- When items are left and threads wait, a thread is woken. -/
theorem Covers.exists_woken (covers : threads.Covers items) (left : 0 < items)
    (waits : threads.waiting ≠ []) : ∃ thread, thread ∈ threads.woken := by
  rcases covers with awake | enough
  · rw [waiting, awake, List.nil_append] at waits
    exact List.exists_mem_of_ne_nil _ waits
  · exact List.exists_mem_of_length_pos (Nat.lt_of_lt_of_le left enough)

/-! ## The threads that wait -/

theorem waiting_wake (woken : threads.wake thread = some next) :
    next.waiting.Perm threads.waiting := by
  obtain ⟨member, rfl⟩ := wake_eq_some.mp woken
  exact List.perm_middle.trans (((List.perm_cons_erase member).symm).append_right threads.woken)

theorem waiting_notifyOne {notified : Option Thread}
    (woken : threads.notifyOne notified = some next) : next.waiting.Perm threads.waiting := by
  cases notified with
  | none =>
      obtain ⟨_, rfl⟩ := notifyOne_none.mp woken
      exact .refl _
  | some thread => exact waiting_wake woken

theorem waiting_leave (member : thread ∈ threads.woken) :
    threads.waiting.Perm (thread :: (threads.leave thread).waiting) :=
  ((List.perm_cons_erase member).append_left threads.asleep).trans List.perm_middle

end WaitSet
