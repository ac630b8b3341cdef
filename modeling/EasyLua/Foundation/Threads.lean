import EasyLua.Foundation.Locks
import Mathlib.Logic.Hydra
import Mathlib.Tactic.Abel

/-!
# Threads with locks

Any number of threads start calls, whose bodies are programs with locks, and take the steps of
these programs in any order. When the bodies are safe, a lock protects its part of the state in
every run: some thread can always go on as long as a call is not finished, every call can be
finished without starting another one, and accesses of different threads commute.
-/

universe u v w

namespace Locks

/-- The state, the threads that hold locks, and what is left of the call of each thread. -/
structure World (Lock : Type u) (State : Type v) (Thread : Type*) (Result : Type w) where
  state : State
  holder : Lock → Option Thread
  program : Thread → Program Lock State Result

/-- A thread starts a call, or takes the next step of its call. -/
inductive Event (Thread Call : Type*)
  | start (thread : Thread) (call : Call)
  | proceed (thread : Thread)

variable {Lock : Type u} {State : Type v} {Result : Type w} {Thread Call : Type*}
  [DecidableEq Lock] [DecidableEq Thread]

/-- One event; no result when it is not enabled. -/
def step (body : Call → Program Lock State Result) (world : World Lock State Thread Result) :
    Event Thread Call → Option (World Lock State Thread Result)
  | .start thread call =>
      match world.program thread with
      | .done _ => some { world with program := Function.update world.program thread (body call) }
      | _ => none
  | .proceed thread =>
      match world.program thread with
      | .done _ => none
      | .acquire lock rest =>
          match world.holder lock with
          | none => some { world with
              holder := Function.update world.holder lock (some thread)
              program := Function.update world.program thread rest }
          | some _ => none
      | .release lock rest =>
          if world.holder lock = some thread then some { world with
            holder := Function.update world.holder lock none
            program := Function.update world.program thread rest }
          else none
      | .access update rest => some { world with
          state := update world.state
          program := Function.update world.program thread (rest world.state) }
      | .await condition rest =>
          if condition world.state then
            some { world with program := Function.update world.program thread rest }
          else none

/-- Threads that start calls with these bodies, over this state. -/
def machine (body : Call → Program Lock State Result) (idle : Result) (init : State) :
    Machine (World Lock State Thread Result) (Event Thread Call) where
  init := { state := init, holder := fun _ => none, program := fun _ => .done idle }
  step := step body

/-- The locks that each thread holds, and who holds a lock. -/
abbrev Holders (held : Thread → List Lock) (holder : Lock → Option Thread) : Prop :=
  ∀ thread lock, lock ∈ held thread ↔ holder lock = some thread

section Holders

variable {held : Thread → List Lock} {holder : Lock → Option Thread}

omit [DecidableEq Lock] [DecidableEq Thread] in
theorem Holders.apart (holders : Holders held holder) {first second : Thread} {lock : Lock}
    (inFirst : lock ∈ held first) (inSecond : lock ∈ held second) : first = second := by
  rw [holders] at inFirst inSecond
  exact Option.some.inj (inFirst.symm.trans inSecond)

/-- One thread has a lock more or less. -/
theorem Holders.relock (holders : Holders held holder) {thread : Thread} {lock : Lock}
    {locks : List Lock} {owner : Option Thread}
    (mine : ∀ other, other ∈ locks ↔ if other = lock then owner = some thread
      else other ∈ held thread)
    (free : ∀ other, other ≠ thread → owner ≠ some other ∧ lock ∉ held other) :
    Holders (Function.update held thread locks) (Function.update holder lock owner) := by
  intro other another
  by_cases same : other = thread
  · subst same
    rw [Function.update_self, mine, holders, Function.update_apply]
    split <;> rfl
  · rw [Function.update_of_ne same, Function.update_apply, holders]
    split
    · subst another
      obtain ⟨notOwner, notHeld⟩ := free other same
      rw [holders] at notHeld
      exact iff_of_false notHeld notOwner
    · rfl

/-- A thread acquires a free lock. -/
theorem Holders.acquire (holders : Holders held holder) (thread : Thread) {lock : Lock}
    (free : holder lock = none) :
    Holders (Function.update held thread (lock :: held thread))
      (Function.update holder lock (some thread)) := by
  refine holders.relock (fun other => ?_) fun other different => ?_
  · rw [List.mem_cons]
    split
    · exact iff_of_true (Or.inl ‹_›) rfl
    · exact or_iff_right ‹_›
  · refine ⟨fun same => different (Option.some.inj same).symm, fun member => ?_⟩
    rw [holders, free] at member
    cases member

/-- A thread releases its last lock. -/
theorem Holders.release (holders : Holders held holder) {thread : Thread} {lock : Lock}
    {others : List Lock} (same : held thread = lock :: others) (gone : lock ∉ others) :
    Holders (Function.update held thread others) (Function.update holder lock none) := by
  refine holders.relock (fun other => ?_) fun other different => ?_
  · rw [same, List.mem_cons]
    split
    · subst other
      exact iff_of_false gone (fun same => nomatch same)
    · exact (or_iff_right ‹_›).symm
  · refine ⟨nofun, fun member => different ?_⟩
    exact holders.apart member (same ▸ List.mem_cons_self)

end Holders

/-- Each lock has at most one holder, which has acquired its locks in the order of their ranks,
and whose program is safe with them. -/
structure Guards (discipline : Discipline Lock State) (held : Thread → List Lock)
    (world : World Lock State Thread Result) : Prop where
  holds : Holders held world.holder
  ranked : ∀ thread, (held thread).Pairwise fun later earlier =>
    discipline.rank earlier < discipline.rank later
  safe : ∀ thread, discipline.Safe (fun _ after _ => after = []) (world.program thread)
    (held thread) world.state

/-- A call is safe from the beginning and ends without a lock. -/
def SafeCall (discipline : Discipline Lock State) (program : Program Lock State Result) : Prop :=
  ∀ state, discipline.Safe (fun _ after _ => after = []) program [] state

variable {discipline : Discipline Lock State} {body : Call → Program Lock State Result}
  {world next : World Lock State Thread Result} {held : Thread → List Lock}

omit [DecidableEq Lock] [DecidableEq Thread] in
/-- A thread without a call holds no lock. -/
theorem Guards.idle (guards : Guards discipline held world) {thread : Thread} {result : Result}
    (done : world.program thread = .done result) : held thread = [] := by
  have safe := guards.safe thread
  rw [done] at safe
  exact safe world.state (.refl _ _)

omit [DecidableEq Lock] in
/-- One thread goes on without changing the locks, and what it changes is its own. -/
theorem Guards.advance (guards : Guards discipline held world) {thread : Thread} {state : State}
    {program : Program Lock State Result}
    (changes : ∀ lock, lock ∉ held thread → (discipline.protects lock).r world.state state)
    (safe : discipline.Safe (fun _ after _ => after = []) program (held thread) state) :
    Guards discipline held { world with
      state := state
      program := Function.update world.program thread program } where
  holds := guards.holds
  ranked := guards.ranked
  safe := by
    intro other
    by_cases same : other = thread
    · subst same
      simp only [Function.update_self]
      exact safe
    · simp only [Function.update_of_ne same]
      refine (guards.safe other).stable fun lock member => changes lock fun mine => ?_
      exact same (guards.holds.apart member mine)

omit [DecidableEq Lock] in
/-- One thread goes on with a lock more or less. -/
theorem Guards.relock (guards : Guards discipline held world) {thread : Thread}
    {locks : List Lock} {holder : Lock → Option Thread} {rest : Program Lock State Result}
    (holders : Holders (Function.update held thread locks) holder)
    (ranked : locks.Pairwise fun later earlier => discipline.rank earlier < discipline.rank later)
    (safe : discipline.Safe (fun _ after _ => after = []) rest locks world.state) :
    Guards discipline (Function.update held thread locks) { world with
      holder := holder
      program := Function.update world.program thread rest } where
  holds := holders
  ranked := by
    intro other
    by_cases same : other = thread
    · subst same
      rw [Function.update_self]
      exact ranked
    · rw [Function.update_of_ne same]
      exact guards.ranked other
  safe := by
    intro other
    dsimp only
    by_cases same : other = thread
    · subst same
      rw [Function.update_self, Function.update_self]
      exact safe
    · rw [Function.update_of_ne same, Function.update_of_ne same]
      exact guards.safe other

theorem Guards.step (guards : Guards discipline held world)
    (calls : ∀ call, SafeCall discipline (body call)) {event : Event Thread Call}
    (stepped : step body world event = some next) :
    ∃ after, Guards discipline after next := by
  cases event with
  | start thread call =>
      simp only [Locks.step] at stepped
      split at stepped
      · rename_i result done
        cases stepped
        refine ⟨held, guards.advance (fun lock _ => (discipline.protects lock).refl _) ?_⟩
        rw [guards.idle done]
        exact calls call world.state
      · cases stepped
  | proceed thread =>
      have safe := guards.safe thread
      simp only [Locks.step] at stepped
      split at stepped
      · cases stepped
      · rename_i lock rest running
        rw [running] at safe
        split at stepped
        · rename_i free
          cases stepped
          exact ⟨_, guards.relock (guards.holds.acquire thread free)
            (List.pairwise_cons.mpr ⟨safe.1, guards.ranked thread⟩)
            (safe.2 world.state (.refl _ _))⟩
        · cases stepped
      · rename_i lock rest running
        rw [running] at safe
        obtain ⟨others, same, kept⟩ := safe
        split at stepped
        · cases stepped
          have ranked := guards.ranked thread
          rw [same] at ranked
          obtain ⟨above, rankedOthers⟩ := List.pairwise_cons.mp ranked
          have gone : lock ∉ others := fun member => Nat.lt_irrefl _ (above lock member)
          exact ⟨_, guards.relock (guards.holds.release same gone) rankedOthers
            (kept world.state (.refl _ _))⟩
        · cases stepped
      · rename_i update rest running
        rw [running] at safe
        cases stepped
        obtain ⟨local_, after⟩ := safe world.state (.refl _ _)
        exact ⟨held, guards.advance local_.changes after⟩
      · rename_i condition rest running
        rw [running] at safe
        split at stepped
        · cases stepped
          have after := (safe world.state (.refl _ _)).2
          exact ⟨held, guards.advance (fun lock _ => (discipline.protects lock).refl _) after⟩
        · cases stepped

/-- **Locks protect.** In every run of safe calls the threads guard the state by their locks. -/
theorem guards_of_run (calls : ∀ call, SafeCall discipline (body call)) {idle : Result}
    {init : State} {events : List (Event Thread Call)}
    (ran : (machine body idle init).run events = some world) :
    ∃ held, Guards discipline held world := by
  refine (machine body idle init).run_invariant
    (fun world => ∃ held, Guards discipline held world) ?_ ?_ events world ran
  · refine ⟨fun _ => [], ⟨fun _ _ => ?_, fun _ => .nil, fun _ _ _ => rfl⟩⟩
    exact iff_of_false List.not_mem_nil (fun same => nomatch same)
  · rintro state event after ⟨held, guards⟩ stepped
    exact guards.step calls stepped

/-! ## Nobody waits forever -/

omit [DecidableEq Lock] [DecidableEq Thread] in
/-- A condition that is awaited holds. -/
theorem Guards.awaited (guards : Guards discipline held world) {thread : Thread}
    {condition : State → Bool} {rest : Program Lock State Result}
    (running : world.program thread = .await condition rest) : condition world.state = true := by
  have safe := guards.safe thread
  rw [running] at safe
  exact (safe world.state (.refl _ _)).1

/-- A thread in a call can go on, or waits for a lock that another one holds. -/
theorem Guards.proceeds_or_waits (guards : Guards discipline held world)
    (body : Call → Program Lock State Result) {thread : Thread}
    (running : ¬ (world.program thread).Finished) :
    (∃ next, Locks.step body world (.proceed thread) = some next) ∨
      ∃ wanted other, wanted ∈ held other ∧
        ∀ before ∈ held thread, discipline.rank before < discipline.rank wanted := by
  have safe := guards.safe thread
  cases program : world.program thread with
  | done result =>
      rw [program] at running
      exact absurd trivial running
  | acquire wanted rest =>
      rw [program] at safe
      cases free : world.holder wanted with
      | none =>
          refine Or.inl (Option.isSome_iff_exists.mp ?_)
          simp only [Locks.step, program, free, Option.isSome_some]
      | some other => exact Or.inr ⟨wanted, other, (guards.holds other wanted).mpr free, safe.1⟩
  | release mine rest =>
      rw [program] at safe
      obtain ⟨others, same, _⟩ := safe
      have holds := (guards.holds thread mine).mp (same ▸ List.mem_cons_self)
      refine Or.inl (Option.isSome_iff_exists.mp ?_)
      simp only [Locks.step, program, if_pos holds, Option.isSome_some]
  | access update rest =>
      refine Or.inl (Option.isSome_iff_exists.mp ?_)
      simp only [Locks.step, program, Option.isSome_some]
  | await condition rest =>
      have holds := guards.awaited program
      refine Or.inl (Option.isSome_iff_exists.mp ?_)
      simp only [Locks.step, program, if_pos holds, Option.isSome_some]

omit [DecidableEq Lock] [DecidableEq Thread] in
/-- A thread that holds a lock is in a call. -/
theorem Guards.running (guards : Guards discipline held world) {thread : Thread} {lock : Lock}
    (member : lock ∈ held thread) : ¬ (world.program thread).Finished := by
  intro finished
  cases program : world.program thread with
  | done result =>
      rw [guards.idle program] at member
      cases member
  | _ =>
      rw [program] at finished
      exact finished

/-- The holder of a lock can go on, or a thread that holds a lock of a higher rank can. -/
theorem Guards.holder_proceeds (guards : Guards discipline held world)
    (body : Call → Program Lock State Result) (above : Nat) :
    ∀ {lock : Lock} {thread : Thread}, lock ∈ held thread →
      discipline.bound ≤ discipline.rank lock + above →
      ∃ other next, Locks.step body world (.proceed other) = some next := by
  induction above with
  | zero =>
      intro lock thread _ high
      exact absurd (discipline.rank_lt lock) (Nat.not_lt.mpr high)
  | succ above ih =>
      intro lock thread member high
      rcases guards.proceeds_or_waits body (guards.running member) with
        ⟨next, stepped⟩ | ⟨wanted, other, holds, higher⟩
      · exact ⟨thread, next, stepped⟩
      · have rank := higher lock member
        exact ih holds (by omega)

/-- **No deadlock.** As long as a call is not finished, some thread can go on. -/
theorem Guards.proceeds (guards : Guards discipline held world)
    (body : Call → Program Lock State Result) {thread : Thread}
    (running : ¬ (world.program thread).Finished) :
    ∃ other next, Locks.step body world (.proceed other) = some next := by
  rcases guards.proceeds_or_waits body running with ⟨next, stepped⟩ | ⟨wanted, other, holds, _⟩
  · exact ⟨thread, next, stepped⟩
  · exact guards.holder_proceeds body discipline.bound holds (Nat.le_add_left _ _)

/-- A step of a thread leaves it with a smaller program. -/
theorem step_proceed {thread : Thread} (stepped : step body world (.proceed thread) = some next) :
    ∃ rest, (world.program thread).Finished = False ∧ rest.Next (world.program thread) ∧
      next.program = Function.update world.program thread rest := by
  simp only [step] at stepped
  split at stepped
  · cases stepped
  · rename_i lock rest running
    split at stepped
    · cases stepped
      exact ⟨rest, by rw [running]; rfl, by rw [running]; exact .acquire lock rest, rfl⟩
    · cases stepped
  · rename_i lock rest running
    split at stepped
    · cases stepped
      exact ⟨rest, by rw [running]; rfl, by rw [running]; exact .release lock rest, rfl⟩
    · cases stepped
  · rename_i update rest running
    cases stepped
    exact ⟨_, by rw [running]; rfl, by rw [running]; exact .access update rest _, rfl⟩
  · rename_i condition rest running
    split at stepped
    · cases stepped
      exact ⟨rest, by rw [running]; rfl, by rw [running]; exact .await condition rest, rfl⟩
    · cases stepped

omit [DecidableEq Lock] in
/-- What is left of the calls of some threads gets smaller when one of them takes a step. -/
theorem cutExpand_update {threads : List Thread} (distinct : threads.Nodup) {thread : Thread}
    (member : thread ∈ threads) (program : Thread → Program Lock State Result)
    {rest : Program Lock State Result} (smaller : rest.Next (program thread)) :
    Relation.CutExpand Program.Next
      (threads.map (Function.update program thread rest) : Multiset (Program Lock State Result))
      (threads.map program : Multiset (Program Lock State Result)) := by
  obtain ⟨before, after, rfl⟩ := List.append_of_mem member
  have once := List.nodup_middle.mp distinct
  obtain ⟨notMember, _⟩ := List.nodup_cons.mp once
  have others {some_ : List Thread} (subset : ∀ other ∈ some_, other ∈ before ++ after) :
      some_.map (Function.update program thread rest) = some_.map program := by
    refine List.map_congr_left fun other inside => Function.update_of_ne ?_ ..
    intro same
    exact notMember (same ▸ subset other inside)
  refine ⟨{rest}, program thread, fun one member => ?_, ?_⟩
  · rw [Multiset.mem_singleton.mp member]
    exact smaller
  · simp only [List.map_append, List.map_cons, Function.update_self,
      others fun _ => List.mem_append_left after, others fun _ => List.mem_append_right before]
    rw [← Multiset.coe_add, ← Multiset.coe_add, ← Multiset.cons_coe, ← Multiset.cons_coe,
      ← Multiset.singleton_add, ← Multiset.singleton_add]
    abel

/-- **Every call can be finished** without starting another one. -/
theorem exists_finish (calls : ∀ call, SafeCall discipline (body call)) {idle : Result}
    {init : State} {threads : List Thread} (distinct : threads.Nodup)
    (finished : ∀ thread, thread ∉ threads → (world.program thread).Finished)
    (guarded : ∃ held, Guards discipline held world) :
    ∃ (schedule : List Thread) (last : World Lock State Thread Result),
      (machine body idle init).runFrom world (schedule.map .proceed) = some last ∧
        ∀ thread, (last.program thread).Finished := by
  -- the programs that are left shrink as a multiset
  have shrinks := (@Program.next_wellFounded Lock State Result).cutExpand
  generalize left : (threads.map world.program : Multiset (Program Lock State Result)) = programs
  induction programs using shrinks.induction generalizing world with
  | _ programs ih =>
      by_cases all : ∀ thread, (world.program thread).Finished
      · exact ⟨[], world, rfl, all⟩
      · obtain ⟨thread, running⟩ := not_forall.mp all
        obtain ⟨held, guards⟩ := guarded
        obtain ⟨other, next, stepped⟩ := guards.proceeds body running
        obtain ⟨rest, runs, smaller, program⟩ := step_proceed stepped
        have member : other ∈ threads := by
          by_contra outside
          exact runs ▸ finished other outside
        have shrunk : Relation.CutExpand Program.Next
            (threads.map next.program : Multiset (Program Lock State Result)) programs := by
          rw [← left, program]
          exact cutExpand_update distinct member _ smaller
        have outsiders : ∀ one, one ∉ threads → (next.program one).Finished := by
          intro one outside
          have different : one ≠ other := by
            rintro rfl
            exact outside member
          rw [program, Function.update_of_ne different]
          exact finished one outside
        obtain ⟨schedule, last, ran, ended⟩ := ih _ shrunk outsiders (guards.step calls stepped) rfl
        refine ⟨other :: schedule, last, ?_, ended⟩
        rw [List.map_cons, Machine.runFrom_cons]
        exact (congrArg (Option.bind · _) stepped).trans ran

/-- The threads that have started a call. -/
def Event.starter : Event Thread Call → Option Thread
  | .start thread _ => some thread
  | .proceed _ => none

/-- Only threads that have started a call are in one. -/
theorem finished_of_run {idle : Result} {init : State} {events : List (Event Thread Call)}
    (ran : (machine body idle init).run events = some world) :
    ∀ thread, thread ∉ events.filterMap Event.starter → (world.program thread).Finished := by
  refine (machine body idle init).run_history_invariant
    (fun events world => ∀ thread, thread ∉ events.filterMap Event.starter →
      (world.program thread).Finished) (fun _ _ => trivial) ?_ events world ran
  intro events state event after kept stepped thread absent
  rw [List.filterMap_append, List.mem_append, not_or] at absent
  have before := kept thread absent.1
  cases event with
  | start starter call =>
      have different : thread ≠ starter := by
        rintro rfl
        exact absent.2 List.mem_cons_self
      simp only [machine, step] at stepped
      split at stepped
      · cases stepped
        dsimp only
        rw [Function.update_of_ne different]
        exact before
      · cases stepped
  | proceed other =>
      have proceeded : step body state (.proceed other) = some after := stepped
      obtain ⟨rest, runs, _, program⟩ := step_proceed proceeded
      rw [program]
      by_cases same : thread = other
      · subst same
        exact absurd before (by rw [runs]; exact id)
      · rw [Function.update_of_ne same]
        exact before

/-! ## Invariants -/

/-- An event that starts a call makes it that of its thread. -/
def Event.note (calls : Thread → Option Call) : Event Thread Call → Thread → Option Call
  | .start thread call => Function.update calls thread (some call)
  | .proceed _ => calls

/-- The call that each thread has started last. -/
def callOf (events : List (Event Thread Call)) : Thread → Option Call :=
  events.foldl Event.note fun _ => none

theorem callOf_concat (events : List (Event Thread Call)) (event : Event Thread Call) :
    callOf (events ++ [event]) = event.note (callOf events) := by
  unfold callOf
  rw [List.foldl_append]
  rfl

/-- The calls keep the invariant, and their results are good for them. -/
def Maintained (body : Call → Program Lock State Result) (invariant : State → Prop)
    (good : Thread → Call → Result → Prop) (events : List (Event Thread Call)) : Prop :=
  ∀ thread call, .start thread call ∈ events →
    (body call).Maintains invariant (good thread call)

/-- **Invariant rule.** When each call that is started keeps the invariant, it holds in every
run, and each thread has a good result of its last call, will get one, or has not called. -/
theorem maintains_of_run {invariant : State → Prop} {good : Thread → Call → Result → Prop}
    {idle : Result} {init : State} (start : invariant init) (events : List (Event Thread Call)) :
    ∀ world, (machine body idle init).run events = some world →
      Maintained body invariant good events → invariant world.state ∧ ∀ thread,
        world.program thread = .done idle ∨ ∃ call, callOf events thread = some call ∧
          (world.program thread).Maintains invariant (good thread call) := by
  refine (machine body idle init).run_history_invariant
    (fun events world => Maintained body invariant good events → invariant world.state ∧
      ∀ thread, world.program thread = .done idle ∨ ∃ call, callOf events thread = some call ∧
        (world.program thread).Maintains invariant (good thread call))
    (fun _ => ⟨start, fun _ => Or.inl rfl⟩) ?_ events
  intro events world event next kept stepped maintained
  obtain ⟨holds, threads⟩ := kept fun thread call member =>
    maintained thread call (List.mem_append_left _ member)
  -- what one thread is left with does not concern the others
  have others : ∀ (thread : Thread) (rest : Program Lock State Result),
      (∀ other, other ≠ thread → callOf (events ++ [event]) other = callOf events other) →
      (∃ call, callOf (events ++ [event]) thread = some call ∧
        rest.Maintains invariant (good thread call)) →
      ∀ other, Function.update world.program thread rest other = .done idle ∨
        ∃ call, callOf (events ++ [event]) other = some call ∧
          (Function.update world.program thread rest other).Maintains invariant
            (good other call) := by
    intro thread rest elsewhere later other
    by_cases same : other = thread
    · subst same
      rw [Function.update_self]
      exact Or.inr later
    · rw [Function.update_of_ne same, elsewhere other same]
      exact threads other
  cases event with
  | start thread call =>
      simp only [machine, step] at stepped
      split at stepped
      · cases stepped
        have started : Event.start thread call ∈ events ++ [.start thread call] :=
          List.mem_append_right _ List.mem_cons_self
        refine ⟨holds, others thread _ ?_ ⟨call, ?_, maintained thread call started⟩⟩
        · intro other different
          rw [callOf_concat]
          exact Function.update_of_ne different ..
        · rw [callOf_concat]
          exact Function.update_self ..
      · cases stepped
  | proceed thread =>
      have mine := threads thread
      have same : callOf (events ++ [.proceed thread]) = callOf events := callOf_concat ..
      have elsewhere (other : Thread) (_ : other ≠ thread) :
          callOf (events ++ [.proceed thread]) other = callOf events other := congrFun same other
      simp only [machine, step] at stepped
      split at stepped
      · cases stepped
      all_goals
        rename_i running
        rw [running] at mine
        obtain ⟨call, calls, left⟩ := mine.resolve_left nofun
        rw [← same] at calls
      · split at stepped
        · cases stepped
          exact ⟨holds, others thread _ elsewhere ⟨call, calls, left⟩⟩
        · cases stepped
      · split at stepped
        · cases stepped
          exact ⟨holds, others thread _ elsewhere ⟨call, calls, left⟩⟩
        · cases stepped
      · cases stepped
        obtain ⟨kept, later⟩ := left world.state holds
        exact ⟨kept, others thread _ elsewhere ⟨call, calls, later⟩⟩
      · split at stepped
        · cases stepped
          exact ⟨holds, others thread _ elsewhere ⟨call, calls, left⟩⟩
        · cases stepped

/-! ## Accesses -/

omit [DecidableEq Lock] [DecidableEq Thread] in
/-- **No races.** The next accesses of two threads commute, and neither reads what the other
one changes, when the locks together protect the whole state. -/
theorem Guards.commute (guards : Guards discipline held world)
    (whole : ∀ state other, (∀ lock, (discipline.protects lock).r state other) → state = other)
    {first second : Thread} (different : first ≠ second) {update otherUpdate : State → State}
    {rest otherRest : State → Program Lock State Result}
    (running : world.program first = .access update rest)
    (otherRunning : world.program second = .access otherUpdate otherRest) :
    update (otherUpdate world.state) = otherUpdate (update world.state) ∧
      rest (otherUpdate world.state) = rest world.state ∧
      otherRest (update world.state) = otherRest world.state := by
  have safe := guards.safe first
  have otherSafe := guards.safe second
  rw [running] at safe
  rw [otherRunning] at otherSafe
  have mine := (safe world.state (.refl _ _)).1
  have others := (otherSafe world.state (.refl _ _)).1
  have unseen : discipline.Agree (held second) world.state (update world.state) :=
    fun lock member =>
      mine.changes lock fun inFirst => different (guards.holds.apart inFirst member)
  have otherUnseen : discipline.Agree (held first) world.state (otherUpdate world.state) :=
    fun lock member =>
      others.changes lock fun inSecond => different (guards.holds.apart member inSecond)
  refine ⟨whole _ _ fun lock => ?_, mine.reads _ otherUnseen, others.reads _ unseen⟩
  -- on each lock at most one of the two updates has an effect
  have afterOther := (safe _ otherUnseen).1
  have afterMine := (otherSafe _ unseen).1
  by_cases inFirst : lock ∈ held first
  · have notSecond : lock ∉ held second :=
      fun inSecond => different (guards.holds.apart inFirst inSecond)
    exact (discipline.protects lock).trans
      ((discipline.protects lock).symm (mine.updates _ otherUnseen lock inFirst))
      (afterMine.changes lock notSecond)
  · by_cases inSecond : lock ∈ held second
    · exact (discipline.protects lock).trans
        ((discipline.protects lock).symm (afterOther.changes lock inFirst))
        (others.updates _ unseen lock inSecond)
    · exact (discipline.protects lock).trans
        ((discipline.protects lock).symm (afterOther.changes lock inFirst))
        ((discipline.protects lock).trans
          ((discipline.protects lock).symm (others.changes lock inSecond))
          ((discipline.protects lock).trans (mine.changes lock inFirst)
            (afterMine.changes lock inSecond)))

end Locks
