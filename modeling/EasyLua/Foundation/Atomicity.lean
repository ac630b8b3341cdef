import EasyLua.Foundation.Simulation
import EasyLua.Foundation.Threads

/-!
# Atomicity of what is done under locks

A program with all its locks is compared with a coarser one, which does in one access what the
first one does in several, and acquires only some of the locks. The program refines the coarser
one when it answers each of its accesses once, and brings what a lock protects into the same
state as the coarser one before it releases the lock.

When the bodies of all calls refine coarser ones, a run of threads with all the locks is answered
by a run with the coarser bodies, step by step or not at all: the threads get the same results,
and as long as nobody holds a lock, the states are the same.
-/

universe u v w

namespace Locks

variable {Lock : Type u} {State : Type v} {α β γ : Type w}

namespace Discipline

variable (discipline : Discipline Lock State) (kept : Lock → Bool)

/-- The program, with these locks held, refines the coarser one, in all states that agree with
the given ones on what the locks protect. The postcondition says how both end. -/
def Refines (post : α → Program Lock State β → List Lock → State → State → Prop) :
    Program Lock State α → Program Lock State β → List Lock → State → State → Prop
  | .done result, coarse, held, state, abstract => ∀ other another,
      discipline.Agree held state other → discipline.Agree held abstract another →
        post result coarse held other another
  | .acquire lock rest, coarse, held, state, abstract => ∀ other another,
      discipline.Agree held state other → discipline.Agree held abstract another →
      (discipline.protects lock).r other another →
        if kept lock then ∃ next, coarse = .acquire lock next ∧
          Refines post rest next (lock :: held) other another
        else Refines post rest coarse (lock :: held) other another
  | .release lock rest, coarse, held, state, abstract => ∃ others, held = lock :: others ∧
      (discipline.protects lock).r state abstract ∧ ∀ other another,
      discipline.Agree others state other → discipline.Agree others abstract another →
        if kept lock then ∃ next, coarse = .release lock next ∧
          Refines post rest next others other another
        else Refines post rest coarse others other another
  | .access update rest, coarse, held, state, abstract => ∀ other another,
      discipline.Agree held state other → discipline.Agree held abstract another →
      (∀ lock, lock ∉ held → (discipline.protects lock).r other (update other)) ∧
        (Refines post (rest other) coarse held (update other) another ∨
          ∃ effect next, coarse = .access effect next ∧
            (∀ lock, lock ∉ held → (discipline.protects lock).r another (effect another)) ∧
            Refines post (rest other) (next another) held (update other) (effect another))
  | .await condition rest, coarse, held, state, abstract => ∀ other another,
      discipline.Agree held state other → discipline.Agree held abstract another →
        condition other = true ∧ Refines post rest coarse held other another

variable {discipline} {kept} {held : List Lock} {state abstract other another : State}
  {post strong : α → Program Lock State β → List Lock → State → State → Prop}
  {program : Program Lock State α} {coarse : Program Lock State β}

/-- What is the same in two states stays the same in states that agree with them. -/
theorem Agree.carry {lock : Lock} (member : lock ∈ held)
    (same : (discipline.protects lock).r state abstract)
    (agree : discipline.Agree held state other) (agrees : discipline.Agree held abstract another) :
    (discipline.protects lock).r other another :=
  (discipline.protects lock).trans ((discipline.protects lock).symm (agree lock member))
    ((discipline.protects lock).trans same (agrees lock member))

/-- What other threads do to the rest of the states does not matter. -/
theorem Refines.stable (refines : discipline.Refines kept post program coarse held state abstract)
    (agree : discipline.Agree held state other)
    (agrees : discipline.Agree held abstract another) :
    discipline.Refines kept post program coarse held other another := by
  cases program with
  | done result =>
      exact fun third fourth later lasts => refines third fourth (agree.trans later)
        (agrees.trans lasts)
  | acquire lock rest =>
      exact fun third fourth later lasts => refines third fourth (agree.trans later)
        (agrees.trans lasts)
  | release lock rest =>
      obtain ⟨others, rfl, same, released⟩ := refines
      refine ⟨others, rfl, Agree.carry List.mem_cons_self same agree agrees, ?_⟩
      intro third fourth later lasts
      exact released third fourth (agree.tail.trans later) (agrees.tail.trans lasts)
  | access update rest =>
      exact fun third fourth later lasts => refines third fourth (agree.trans later)
        (agrees.trans lasts)
  | await condition rest =>
      exact fun third fourth later lasts => refines third fourth (agree.trans later)
        (agrees.trans lasts)

/-! ## Rules -/

/-- Both programs go on after a part of them. -/
theorem Refines.bind {ε : Type w} {next : α → Program Lock State γ}
    {following : β → Program Lock State ε}
    {post : γ → Program Lock State ε → List Lock → State → State → Prop}
    (refines : discipline.Refines kept strong program coarse held state abstract)
    (after : ∀ result coarse held state abstract,
      (∀ other another, discipline.Agree held state other →
        discipline.Agree held abstract another → strong result coarse held other another) →
      discipline.Refines kept post (next result) (coarse.bind following) held state abstract) :
    discipline.Refines kept post (program.bind next) (coarse.bind following) held state
      abstract := by
  induction program generalizing coarse held state abstract with
  | done result => exact after result coarse held state abstract refines
  | acquire lock rest ih =>
      intro other another agree agrees same
      have left := refines other another agree agrees same
      split at left
      · obtain ⟨rest, rfl, left⟩ := left
        rw [if_pos ‹_›]
        exact ⟨_, rfl, ih left⟩
      · rw [if_neg ‹_›]
        exact ih left
  | release lock rest ih =>
      obtain ⟨others, holds, same, released⟩ := refines
      refine ⟨others, holds, same, fun other another agree agrees => ?_⟩
      have left := released other another agree agrees
      split at left
      · obtain ⟨rest, rfl, left⟩ := left
        rw [if_pos ‹_›]
        exact ⟨_, rfl, ih left⟩
      · rw [if_neg ‹_›]
        exact ih left
  | access update rest ih =>
      intro other another agree agrees
      obtain ⟨changes, silent | ⟨effect, next, rfl, effects, left⟩⟩ :=
        refines other another agree agrees
      · exact ⟨changes, Or.inl (ih other silent)⟩
      · exact ⟨changes, Or.inr ⟨effect, _, rfl, effects, ih other left⟩⟩
  | await condition rest ih =>
      intro other another agree agrees
      obtain ⟨holds, left⟩ := refines other another agree agrees
      exact ⟨holds, ih left⟩

theorem refines_pure {result : α} (post_ : ∀ other another, discipline.Agree held state other →
    discipline.Agree held abstract another → post result coarse held other another) :
    discipline.Refines kept post (pure result) coarse held state abstract := post_

theorem Refines.weaken
    (refines : discipline.Refines kept strong program coarse held state abstract)
    (weaker : ∀ result coarse held state abstract, strong result coarse held state abstract →
      post result coarse held state abstract) :
    discipline.Refines kept post program coarse held state abstract := by
  rw [← program.bind_done, ← coarse.bind_done]
  refine refines.bind fun result coarse held state abstract ended => ?_
  rw [coarse.bind_done]
  exact fun other another agree agrees => weaker _ _ _ _ _ (ended other another agree agrees)

/-- The program goes on after a part of it. -/
theorem refines_bind {next : α → Program Lock State γ}
    {post : γ → Program Lock State β → List Lock → State → State → Prop}
    (refines : discipline.Refines kept (fun result coarse held state abstract =>
      discipline.Refines kept post (next result) coarse held state abstract)
      program coarse held state abstract) :
    discipline.Refines kept post (program >>= next) coarse held state abstract := by
  rw [← coarse.bind_done]
  refine refines.bind fun result coarse held state abstract ended => ?_
  rw [coarse.bind_done]
  exact ended state abstract (.refl _ _) (.refl _ _)

/-- An access that the coarser program does not see. -/
theorem refines_silent {update : State → State} {rest : State → Program Lock State α}
    (changes : ∀ state lock, lock ∉ held → (discipline.protects lock).r state (update state))
    (after : ∀ other another, discipline.Agree held state other →
      discipline.Agree held abstract another →
      discipline.Refines kept post (rest other) coarse held (update other) another) :
    discipline.Refines kept post (.access update rest) coarse held state abstract :=
  fun other another agree agrees => ⟨changes other, Or.inl (after other another agree agrees)⟩

/-- A change that the coarser program does not see. -/
theorem refines_write {update : State → State}
    {post : PUnit → Program Lock State β → List Lock → State → State → Prop}
    (respects : discipline.Respects update)
    (changes : ∀ state lock, lock ∉ held → (discipline.protects lock).r state (update state))
    (post_ : ∀ other another, discipline.Agree held (update state) other →
      discipline.Agree held abstract another → post ⟨⟩ coarse held other another) :
    discipline.Refines kept post (Program.write update) coarse held state abstract := by
  refine refines_silent changes fun other another agree agrees third fourth later lasts => ?_
  exact post_ third fourth ((respects.agree agree).trans later) (agrees.trans lasts)

/-- An access that answers the next one of the coarser program. -/
theorem refines_commit {update effect : State → State} {rest : State → Program Lock State α}
    {next : State → Program Lock State β}
    (changes : ∀ state lock, lock ∉ held → (discipline.protects lock).r state (update state))
    (after : ∀ other another, discipline.Agree held state other →
      discipline.Agree held abstract another →
      (∀ lock, lock ∉ held → (discipline.protects lock).r another (effect another)) ∧
      discipline.Refines kept post (rest other) (next another) held (update other)
        (effect another)) :
    discipline.Refines kept post (.access update rest) (.access effect next) held state
      abstract := by
  intro other another agree agrees
  obtain ⟨effects, refines⟩ := after other another agree agrees
  exact ⟨changes other, Or.inr ⟨effect, next, rfl, effects, refines⟩⟩

theorem refines_await {condition : State → Bool}
    (holds : ∀ other, discipline.Agree held state other → condition other = true)
    (refines : discipline.Refines kept post program coarse held state abstract) :
    discipline.Refines kept post (.await condition program) coarse held state abstract :=
  fun other _ agree agrees => ⟨holds other agree, refines.stable agree agrees⟩

variable (discipline) in
/-- Both states are the same in what the lock protects when it is released. -/
def Restored (lock : Lock) (held : List Lock) (post : List Lock → State → State → Prop)
    (after : List Lock) (last abstract : State) : Prop :=
  after = lock :: held ∧ (discipline.protects lock).r last abstract ∧
    ∀ other another, discipline.Agree held last other → discipline.Agree held abstract another →
      post held other another

/-- A lock that the coarser program does without. -/
theorem refines_withLock {lock : Lock} (dropped : kept lock = false)
    (refines : ∀ other another, discipline.Agree held state other →
      discipline.Agree held abstract another → (discipline.protects lock).r other another →
      discipline.Refines kept
        (fun result coarse => discipline.Restored lock held (post result coarse))
        program coarse (lock :: held) other another) :
    discipline.Refines kept post (Program.withLock lock program) coarse held state abstract := by
  have notKept : ¬ kept lock = true := Bool.eq_false_iff.mp dropped
  intro other another agree agrees same
  rw [if_neg notKept]
  refine refines_bind ((refines other another agree agrees same).weaken ?_)
  intro result coarse after last abstract restored
  obtain ⟨rfl, same, kept_⟩ := restored
  refine ⟨held, rfl, same, fun third fourth later lasts => ?_⟩
  rw [if_neg notKept]
  exact fun fifth sixth more mores => kept_ fifth sixth (later.trans more) (lasts.trans mores)

/-- A lock that both programs acquire. -/
theorem refines_withLock_kept {lock : Lock} {coarse : Program Lock State β}
    (both : kept lock = true)
    (refines : ∀ other another, discipline.Agree held state other →
      discipline.Agree held abstract another → (discipline.protects lock).r other another →
      discipline.Refines kept (fun result rest after last abstract => ∃ value,
        rest = .done value ∧
          discipline.Restored lock held (post result (.done value)) after last abstract)
        program coarse (lock :: held) other another) :
    discipline.Refines kept post (Program.withLock lock program) (Program.withLock lock coarse)
      held state abstract := by
  intro other another agree agrees same
  rw [if_pos both]
  refine ⟨_, rfl, (refines other another agree agrees same).bind ?_⟩
  intro result rest after last abstract ended
  obtain ⟨value, rfl, rfl, same, restored⟩ := ended last abstract (.refl _ _) (.refl _ _)
  refine ⟨held, rfl, same, fun third fourth later lasts => ?_⟩
  rw [if_pos both]
  refine ⟨_, rfl, fun fifth sixth more mores => ?_⟩
  exact restored fifth sixth (later.trans more) (lasts.trans mores)

/-- Both programs have come to an end with the same result, and with these locks. -/
def Answered (held : List Lock) (result : α) (coarse : Program Lock State α) (after : List Lock)
    (_ _ : State) : Prop := coarse = .done result ∧ after = held

variable (discipline kept) in
/-- The program refines the coarser one in all states. -/
def Implements (held : List Lock) (program coarse : Program Lock State α) : Prop :=
  ∀ state abstract, discipline.Refines kept (Answered held) program coarse held state abstract

theorem implements_pure (result : α) :
    discipline.Implements kept held (pure result) (pure result) := fun _ _ _ _ _ _ => ⟨rfl, rfl⟩

theorem Implements.bind {coarse : Program Lock State α} {next following : α → Program Lock State γ}
    (first : discipline.Implements kept held program coarse)
    (after : ∀ result, discipline.Implements kept held (next result) (following result)) :
    discipline.Implements kept held (program >>= next) (coarse >>= following) := by
  intro state abstract
  refine (first state abstract).bind fun result rest last state abstract ended => ?_
  obtain ⟨rfl, rfl⟩ := ended state abstract (.refl _ _) (.refl _ _)
  exact after result state abstract

/-- A lock that the coarser program does without, where it does nothing else. -/
theorem implements_withLock_pure {lock : Lock} (dropped : kept lock = false) (result : α) :
    discipline.Implements kept held (Program.withLock lock (pure result)) (pure result) := by
  intro state abstract
  refine refines_withLock dropped fun other another _ _ same => refines_pure ?_
  intro third fourth agree agrees
  exact ⟨rfl, Agree.carry List.mem_cons_self same agree agrees, fun _ _ _ _ => ⟨rfl, rfl⟩⟩

/-- One access under a lock. -/
theorem implements_commit {lock : Lock} (dropped : kept lock = false)
    {update effect : State → State} {value answer : State → α}
    (changes : ∀ state other, other ∉ lock :: held →
      (discipline.protects other).r state (update state))
    (effects : ∀ state other, other ∉ lock :: held →
      (discipline.protects other).r state (effect state))
    (same : ∀ state abstract, (discipline.protects lock).r state abstract →
      value state = answer abstract ∧
        (discipline.protects lock).r (update state) (effect abstract)) :
    discipline.Implements kept held
      (Program.withLock lock (.access update fun state => .done (value state)))
      (.access effect fun state => .done (answer state)) := by
  intro state abstract
  refine refines_withLock dropped fun other another _ _ agreed => ?_
  refine refines_commit changes fun third fourth later lasts => ⟨effects fourth, ?_⟩
  obtain ⟨values, restored⟩ :=
    same third fourth (Agree.carry List.mem_cons_self agreed later lasts)
  intro fifth sixth agree agrees
  refine ⟨rfl, Agree.carry List.mem_cons_self restored agree agrees, fun _ _ _ _ => ⟨?_, rfl⟩⟩
  rw [values]

/-- A lock that both programs acquire, and which protects nothing by itself. -/
theorem Implements.withLock {lock : Lock} {program coarse : Program Lock State α}
    (both : kept lock = true)
    (nothing : ∀ state other, (discipline.protects lock).r state other)
    (implements : discipline.Implements kept (lock :: held) program coarse) :
    discipline.Implements kept held (Program.withLock lock program)
      (Program.withLock lock coarse) := by
  intro state abstract
  refine refines_withLock_kept both fun other another _ _ _ =>
    (implements other another).weaken ?_
  rintro result rest after last abstract ⟨rfl, rfl⟩
  exact ⟨result, rfl, rfl, nothing _ _, fun _ _ _ _ => ⟨rfl, rfl⟩⟩

end Discipline

/-! ## Threads -/

section Threads

variable {Thread Call : Type*} {Result : Type w} [DecidableEq Lock] [DecidableEq Thread]
  {discipline : Discipline Lock State} {kept : Lock → Bool}
  {fine coarse : World Lock State Thread Result} {held : Thread → List Lock}

/-- Each thread refines the one with the coarser program, and the states are the same in what
the free locks protect. -/
structure Matches (discipline : Discipline Lock State) (kept : Lock → Bool)
    (held : Thread → List Lock) (fine coarse : World Lock State Thread Result) : Prop where
  holds : Holders held fine.holder
  nodup : ∀ thread, (held thread).Nodup
  holder : ∀ lock, coarse.holder lock = if kept lock then fine.holder lock else none
  refines : ∀ thread, discipline.Refines kept (Discipline.Answered []) (fine.program thread)
    (coarse.program thread) (held thread) fine.state coarse.state
  free : ∀ lock, fine.holder lock = none → (discipline.protects lock).r fine.state coarse.state

omit [DecidableEq Lock] in
/-- One thread goes on without changing the locks, and what it changes is its own. -/
theorem Matches.advance (matches_ : Matches discipline kept held fine coarse) {thread : Thread}
    {state abstract : State} {program answer : Program Lock State Result}
    (changes : ∀ lock, lock ∉ held thread → (discipline.protects lock).r fine.state state)
    (effects : ∀ lock, lock ∉ held thread → (discipline.protects lock).r coarse.state abstract)
    (refines : discipline.Refines kept (Discipline.Answered []) program answer (held thread) state
      abstract) :
    Matches discipline kept held
      { fine with state := state, program := Function.update fine.program thread program }
      { coarse with state := abstract, program := Function.update coarse.program thread answer }
      where
  holds := matches_.holds
  nodup := matches_.nodup
  holder := matches_.holder
  refines := by
    intro other
    by_cases same : other = thread
    · subst same
      simp only [Function.update_self]
      exact refines
    · simp only [Function.update_of_ne same]
      refine (matches_.refines other).stable (fun lock member => ?_) fun lock member => ?_
      · exact changes lock fun mine => same (matches_.holds.apart member mine)
      · exact effects lock fun mine => same (matches_.holds.apart member mine)
  free := by
    intro lock free
    have outside : lock ∉ held thread := by
      intro member
      have holds := (matches_.holds thread lock).mp member
      exact absurd (free.symm.trans holds) nofun
    have same := matches_.free lock free
    exact (discipline.protects lock).trans ((discipline.protects lock).symm (changes lock outside))
      ((discipline.protects lock).trans same (effects lock outside))

omit [DecidableEq Lock] in
/-- One thread goes on with a lock more or less, and the other one with it if the lock is kept. -/
theorem Matches.relock (matches_ : Matches discipline kept held fine coarse) {thread : Thread}
    {locks : List Lock} {holder abstract : Lock → Option Thread}
    {rest answer : Program Lock State Result}
    (holders : Holders (Function.update held thread locks) holder)
    (nodup : locks.Nodup)
    (same : ∀ lock, abstract lock = if kept lock then holder lock else none)
    (free : ∀ lock, holder lock = none →
      fine.holder lock = none ∨ (discipline.protects lock).r fine.state coarse.state)
    (refines : discipline.Refines kept (Discipline.Answered []) rest answer locks fine.state
      coarse.state) :
    Matches discipline kept (Function.update held thread locks)
      { fine with holder := holder, program := Function.update fine.program thread rest }
      { coarse with holder := abstract, program := Function.update coarse.program thread answer }
      where
  holds := holders
  nodup := by
    intro other
    by_cases same : other = thread
    · subst same
      rw [Function.update_self]
      exact nodup
    · rw [Function.update_of_ne same]
      exact matches_.nodup other
  holder := same
  refines := by
    intro other
    dsimp only
    by_cases same : other = thread
    · subst same
      simp only [Function.update_self]
      exact refines
    · simp only [Function.update_of_ne same]
      exact matches_.refines other
  free := fun lock isFree => (free lock isFree).elim (matches_.free lock) id

/-- What the coarser machine does in answer to an event: it starts the same call, and lets the
same thread go on or nobody. -/
def Answers : Event Thread Call → List (Event Thread Call) → Prop
  | .start thread call, answer => answer = [.start thread call]
  | .proceed thread, answer => answer = [] ∨ answer = [.proceed thread]

variable {body abstractBody : Call → Program Lock State Result}
  {next : World Lock State Thread Result}

omit [DecidableEq Lock] [DecidableEq Thread] in
theorem Matches.answered (matches_ : Matches discipline kept held fine coarse) {thread : Thread}
    {result : Result} (done : fine.program thread = .done result) :
    coarse.program thread = .done result ∧ held thread = [] := by
  have refines := matches_.refines thread
  rw [done] at refines
  exact refines fine.state coarse.state (.refl _ _) (.refl _ _)

theorem Matches.start (matches_ : Matches discipline kept held fine coarse)
    (calls : ∀ call, discipline.Implements kept [] (body call) (abstractBody call))
    {thread : Thread} {call : Call} (stepped : step body fine (.start thread call) = some next) :
    ∃ last, step abstractBody coarse (.start thread call) = some last ∧
      Matches discipline kept held next last := by
  simp only [step] at stepped
  split at stepped
  · rename_i result done
    cases stepped
    obtain ⟨answered, idle⟩ := matches_.answered done
    refine ⟨_, by simp only [step, answered]; rfl, ?_⟩
    refine matches_.advance (fun lock _ => (discipline.protects lock).refl _)
      (fun lock _ => (discipline.protects lock).refl _) ?_
    rw [idle]
    exact calls call fine.state coarse.state
  · cases stepped

omit [DecidableEq Thread] in
/-- The coarser program acquires or releases the lock, or does without it. -/
theorem Matches.holder_update (matches_ : Matches discipline kept held fine coarse) (lock : Lock)
    (owner : Option Thread) (other : Lock) :
    (if kept lock then Function.update coarse.holder lock owner else coarse.holder) other =
      if kept other then Function.update fine.holder lock owner other else none := by
  by_cases both : kept lock = true
  · rw [if_pos both, Function.update_apply, Function.update_apply, matches_.holder]
    split
    · subst other
      exact (if_pos both).symm
    · rfl
  · rw [if_neg both, matches_.holder, Function.update_apply]
    by_cases same : other = lock
    · subst same
      rw [if_neg both, if_neg both]
    · rw [if_neg same]

theorem Matches.acquire (matches_ : Matches discipline kept held fine coarse) {thread : Thread}
    {lock : Lock} {rest : Program Lock State Result}
    (running : fine.program thread = .acquire lock rest) (free : fine.holder lock = none) :
    ∃ events last after, Answers (.proceed thread : Event Thread Call) events ∧
      events.foldlM (step abstractBody) coarse = some last ∧
      Matches discipline kept after { fine with
        holder := Function.update fine.holder lock (some thread)
        program := Function.update fine.program thread rest } last := by
  have refines := matches_.refines thread
  rw [running] at refines
  have next := refines fine.state coarse.state (.refl _ _) (.refl _ _) (matches_.free lock free)
  have new : lock ∉ held thread := by
    intro member
    rw [matches_.holds, free] at member
    cases member
  have others : ∀ other, Function.update fine.holder lock (some thread) other = none →
      fine.holder other = none ∨ (discipline.protects other).r fine.state coarse.state := by
    intro other isFree
    rw [Function.update_apply] at isFree
    split at isFree
    · cases isFree
    · exact Or.inl isFree
  have holder := matches_.holder_update lock (some thread)
  have nodup := List.nodup_cons.mpr ⟨new, matches_.nodup thread⟩
  split at next
  · obtain ⟨answer, acquires, after⟩ := next
    simp only [if_pos ‹kept lock = true›] at holder
    have free_ : coarse.holder lock = none := by
      rw [matches_.holder, if_pos ‹_›, free]
    refine ⟨[.proceed thread], _, _, Or.inr rfl, ?_,
      matches_.relock (matches_.holds.acquire thread free) nodup holder others after⟩
    simp only [List.foldlM_cons, List.foldlM_nil, step, acquires, free_]
    rfl
  · simp only [if_neg ‹¬ kept lock = true›] at holder
    have silent :=
      matches_.relock (matches_.holds.acquire thread free) nodup holder others next
    rw [Function.update_eq_self] at silent
    exact ⟨[], coarse, _, Or.inl rfl, rfl, silent⟩

theorem Matches.release (matches_ : Matches discipline kept held fine coarse) {thread : Thread}
    {lock : Lock} {rest : Program Lock State Result}
    (running : fine.program thread = .release lock rest) :
    ∃ events last after, Answers (.proceed thread : Event Thread Call) events ∧
      events.foldlM (step abstractBody) coarse = some last ∧
      Matches discipline kept after { fine with
        holder := Function.update fine.holder lock none
        program := Function.update fine.program thread rest } last := by
  have refines := matches_.refines thread
  rw [running] at refines
  obtain ⟨others, same, restored, released⟩ := refines
  have next := released fine.state coarse.state (.refl _ _) (.refl _ _)
  have nodup := matches_.nodup thread
  rw [same] at nodup
  obtain ⟨gone, nodup⟩ := List.nodup_cons.mp nodup
  have mine : fine.holder lock = some thread :=
    (matches_.holds thread lock).mp (same ▸ List.mem_cons_self)
  have free : ∀ other, Function.update fine.holder lock none other = none →
      fine.holder other = none ∨ (discipline.protects other).r fine.state coarse.state := by
    intro other isFree
    rw [Function.update_apply] at isFree
    split at isFree
    · subst other
      exact Or.inr restored
    · exact Or.inl isFree
  have holder := matches_.holder_update lock none
  split at next
  · obtain ⟨answer, releases, after⟩ := next
    simp only [if_pos ‹kept lock = true›] at holder
    have mine_ : coarse.holder lock = some thread := by
      rw [matches_.holder, if_pos ‹_›, mine]
    refine ⟨[.proceed thread], _, _, Or.inr rfl, ?_,
      matches_.relock (matches_.holds.release same gone) nodup holder free after⟩
    simp only [List.foldlM_cons, List.foldlM_nil, step, releases, if_pos mine_]
    rfl
  · simp only [if_neg ‹¬ kept lock = true›] at holder
    have silent := matches_.relock (matches_.holds.release same gone) nodup holder free next
    rw [Function.update_eq_self] at silent
    exact ⟨[], coarse, _, Or.inl rfl, rfl, silent⟩

omit [DecidableEq Lock] in
/-- A thread goes on, and the other one does not. -/
theorem Matches.silent (matches_ : Matches discipline kept held fine coarse) {thread : Thread}
    {state : State} {program : Program Lock State Result}
    (changes : ∀ lock, lock ∉ held thread → (discipline.protects lock).r fine.state state)
    (refines : discipline.Refines kept (Discipline.Answered []) program (coarse.program thread)
      (held thread) state coarse.state) :
    Matches discipline kept held
      { fine with state := state, program := Function.update fine.program thread program }
      coarse := by
  have advanced :=
    matches_.advance changes (fun lock _ => (discipline.protects lock).refl _) refines
  rw [Function.update_eq_self] at advanced
  exact advanced

theorem Matches.proceed (matches_ : Matches discipline kept held fine coarse)
    {thread : Thread} (stepped : step body fine (.proceed thread) = some next) :
    ∃ events last after, Answers (.proceed thread : Event Thread Call) events ∧
      events.foldlM (step abstractBody) coarse = some last ∧
      Matches discipline kept after next last := by
  simp only [step] at stepped
  split at stepped
  · cases stepped
  · rename_i lock rest running
    split at stepped
    · cases stepped
      exact matches_.acquire running ‹_›
    · cases stepped
  · rename_i lock rest running
    split at stepped
    · cases stepped
      exact matches_.release running
    · cases stepped
  · rename_i update rest running
    have refines := matches_.refines thread
    rw [running] at refines
    cases stepped
    obtain ⟨changes, silent | ⟨effect, answer, accesses, effects, after⟩⟩ :=
      refines fine.state coarse.state (.refl _ _) (.refl _ _)
    · exact ⟨[], coarse, held, Or.inl rfl, rfl, matches_.silent changes silent⟩
    · refine ⟨[.proceed thread], _, held, Or.inr rfl, ?_, matches_.advance changes effects after⟩
      simp only [List.foldlM_cons, List.foldlM_nil, step, accesses]
      rfl
  · rename_i condition rest running
    have refines := matches_.refines thread
    rw [running] at refines
    split at stepped
    · cases stepped
      have after := (refines fine.state coarse.state (.refl _ _) (.refl _ _)).2
      exact ⟨[], coarse, held, Or.inl rfl, rfl,
        matches_.silent (fun lock _ => (discipline.protects lock).refl _) after⟩
    · cases stepped

/-- **Atomicity.** Threads with all the locks are simulated by threads with coarser bodies. -/
theorem simulates (calls : ∀ call, discipline.Implements kept [] (body call) (abstractBody call))
    (idle : Result) (init : State) :
    (machine body idle init : Machine (World Lock State Thread Result) (Event Thread Call)).Simulates
      (machine abstractBody idle init)
      (fun fine coarse => ∃ held, Matches discipline kept held fine coarse) Answers where
  init := by
    refine ⟨fun _ => [], fun _ _ => ?_, fun _ => .nil, fun lock => ?_, fun _ _ _ _ _ => ?_,
      fun lock _ => (discipline.protects lock).refl init⟩
    · exact iff_of_false List.not_mem_nil (fun same => nomatch same)
    · exact (ite_self none).symm
    · exact ⟨rfl, rfl⟩
  step := by
    rintro fine next coarse event ⟨held, matches_⟩ stepped
    cases event with
    | start thread call =>
        obtain ⟨last, answered, after⟩ := matches_.start calls stepped
        refine ⟨[.start thread call], last, rfl, ?_, held, after⟩
        rw [Machine.runFrom_cons]
        exact congrArg (Option.bind · _) answered
    | proceed thread =>
        have proceeded : step body fine (.proceed thread) = some next := stepped
        obtain ⟨events, last, after, answers, ran, matched⟩ := matches_.proceed proceeded
        exact ⟨events, last, answers, ran, after, matched⟩

omit [DecidableEq Lock] [DecidableEq Thread] in
/-- As long as no lock is held, the states are the same. -/
theorem Matches.state_eq (matches_ : Matches discipline kept held fine coarse)
    (whole : ∀ state other, (∀ lock, (discipline.protects lock).r state other) → state = other)
    (free : ∀ lock, fine.holder lock = none) : fine.state = coarse.state :=
  whole _ _ fun lock => matches_.free lock (free lock)

end Threads

end Locks
