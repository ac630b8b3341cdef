import EasyLua.Foundation.Machine
import Mathlib.Data.List.Pairwise
import Mathlib.Data.Setoid.Basic
import Mathlib.Logic.Function.Basic

/-!
# Programs with locks

Threads run programs that acquire and release locks and access a shared state. A discipline
orders the locks by rank and says which part of the state each of them protects. A program is
safe when it acquires locks in the order of their ranks, releases the last one first, and
accesses only what the locks that it holds protect.

Threads that run safe programs never wait for each other in a circle, never wait for a
condition, and do not interfere in their accesses. How a safe program is composed is said by
rules, one for each construct.
-/

universe u v w

namespace Locks

/-- A program with its result. -/
inductive Program (Lock : Type u) (State : Type v) (α : Type w)
  | done (result : α)
  | acquire (lock : Lock) (rest : Program Lock State α)
  | release (lock : Lock) (rest : Program Lock State α)
  /-- The state is read and updated; what follows depends on what was read. -/
  | access (update : State → State) (rest : State → Program Lock State α)
  /-- The program goes on when the condition holds. -/
  | await (condition : State → Bool) (rest : Program Lock State α)

namespace Program

variable {Lock : Type u} {State : Type v} {α β : Type w}

/-- One program after another. -/
def bind : Program Lock State α → (α → Program Lock State β) → Program Lock State β
  | .done result, next => next result
  | .acquire lock rest, next => .acquire lock (rest.bind next)
  | .release lock rest, next => .release lock (rest.bind next)
  | .access update rest, next => .access update fun state => (rest state).bind next
  | .await condition rest, next => .await condition (rest.bind next)

instance : Monad (Program Lock State) where
  pure := .done
  bind := bind

theorem bind_done (program : Program Lock State α) : program.bind .done = program := by
  induction program with
  | done result => rfl
  | acquire lock rest ih => exact congrArg (acquire lock) ih
  | release lock rest ih => exact congrArg (release lock) ih
  | access update rest ih => exact congrArg (access update) (funext ih)
  | await condition rest ih => exact congrArg (await condition) ih

theorem bind_assoc {γ : Type w} (program : Program Lock State α)
    (next : α → Program Lock State β) (last : β → Program Lock State γ) :
    (program.bind next).bind last = program.bind fun result => (next result).bind last := by
  induction program with
  | done result => rfl
  | acquire lock rest ih => exact congrArg (acquire lock) ih
  | release lock rest ih => exact congrArg (release lock) ih
  | access update rest ih => exact congrArg (access update) (funext ih)
  | await condition rest ih => exact congrArg (await condition) ih

/-- Read the state. -/
def read (function : State → α) : Program Lock State α :=
  .access id fun state => .done (function state)

/-- Change the state. -/
def write (update : State → State) : Program Lock State PUnit :=
  .access update fun _ => .done ⟨⟩

/-- Change the state and read it in one access. -/
def modifyGet (function : State → α × State) : Program Lock State α :=
  .access (fun state => (function state).2) fun state => .done (function state).1

/-- The body runs with the lock held, as under a `std::lock_guard`. -/
def withLock (lock : Lock) (body : Program Lock State α) : Program Lock State α :=
  .acquire lock (body.bind fun result => .release lock (.done result))

/-- The program has come to its end. -/
def Finished : Program Lock State α → Prop
  | .done _ => True
  | _ => False

/-- The program that is left after a step. -/
inductive Next : Program Lock State α → Program Lock State α → Prop
  | acquire (lock : Lock) (rest : Program Lock State α) : Next rest (.acquire lock rest)
  | release (lock : Lock) (rest : Program Lock State α) : Next rest (.release lock rest)
  | access (update : State → State) (rest : State → Program Lock State α) (state : State) :
      Next (rest state) (.access update rest)
  | await (condition : State → Bool) (rest : Program Lock State α) :
      Next rest (.await condition rest)

/-- Every program ends after finitely many of its steps. -/
theorem next_wellFounded : WellFounded (@Next Lock State α) := by
  refine ⟨fun program => ?_⟩
  induction program with
  | done result => exact ⟨_, fun _ next => nomatch next⟩
  | acquire lock rest ih =>
      refine ⟨_, fun _ next => ?_⟩
      cases next
      exact ih
  | release lock rest ih =>
      refine ⟨_, fun _ next => ?_⟩
      cases next
      exact ih
  | access update rest ih =>
      refine ⟨_, fun _ next => ?_⟩
      cases next with
      | access _ _ state => exact ih state
  | await condition rest ih =>
      refine ⟨_, fun _ next => ?_⟩
      cases next
      exact ih

/-! ## Invariants of the state -/

/-- Each access keeps the invariant, whatever other threads do within it, and the result is
good. -/
def Maintains (invariant : State → Prop) (good : α → Prop) : Program Lock State α → Prop
  | .done result => good result
  | .acquire _ rest => rest.Maintains invariant good
  | .release _ rest => rest.Maintains invariant good
  | .access update rest => ∀ state, invariant state →
      invariant (update state) ∧ (rest state).Maintains invariant good
  | .await _ rest => rest.Maintains invariant good

section Maintains

variable {invariant : State → Prop} {good : α → Prop} {program : Program Lock State α}

theorem maintains_pure {result : α} (good_ : good result) :
    (pure result : Program Lock State α).Maintains invariant good := good_

theorem Maintains.bind {good : β → Prop} {middle : α → Prop} {next : α → Program Lock State β}
    (first : program.Maintains invariant middle)
    (after : ∀ result, middle result → (next result).Maintains invariant good) :
    (program >>= next).Maintains invariant good := by
  change (program.bind next).Maintains invariant good
  induction program with
  | done result => exact after result first
  | acquire lock rest ih => exact ih first
  | release lock rest ih => exact ih first
  | access update rest ih =>
      intro state holds
      obtain ⟨kept, later⟩ := first state holds
      exact ⟨kept, ih state later⟩
  | await condition rest ih => exact ih first

theorem Maintains.weaken {strong : α → Prop} (maintains : program.Maintains invariant strong)
    (weaker : ∀ result, strong result → good result) : program.Maintains invariant good := by
  induction program with
  | done result => exact weaker result maintains
  | acquire lock rest ih => exact ih maintains
  | release lock rest ih => exact ih maintains
  | access update rest ih =>
      intro state holds
      obtain ⟨kept, later⟩ := maintains state holds
      exact ⟨kept, ih state later⟩
  | await condition rest ih => exact ih maintains

theorem Maintains.withLock {lock : Lock} (maintains : program.Maintains invariant good) :
    (withLock lock program).Maintains invariant good :=
  Maintains.bind maintains fun _ good_ => good_

theorem maintains_read {function : State → α}
    (good_ : ∀ state, invariant state → good (function state)) :
    (read function : Program Lock State α).Maintains invariant good :=
  fun state holds => ⟨holds, good_ state holds⟩

theorem maintains_write {update : State → State}
    (kept : ∀ state, invariant state → invariant (update state)) :
    (write update : Program Lock State PUnit).Maintains invariant fun _ => True :=
  fun state holds => ⟨kept state holds, trivial⟩

theorem maintains_modifyGet {function : State → α × State}
    (kept : ∀ state, invariant state → invariant (function state).2 ∧ good (function state).1) :
    (modifyGet function : Program Lock State α).Maintains invariant good := kept

end Maintains

end Program

/-- Which locks may be acquired while others are held, and what each of them protects. -/
structure Discipline (Lock : Type u) (State : Type v) where
  rank : Lock → Nat
  bound : Nat
  rank_lt : ∀ lock, rank lock < bound
  protects : Lock → Setoid State

namespace Discipline

variable {Lock : Type u} {State : Type v} {α β : Type w} (discipline : Discipline Lock State)

/-- Two states do not differ in what these locks protect. -/
def Agree (held : List Lock) (state other : State) : Prop :=
  ∀ lock ∈ held, (discipline.protects lock).r state other

/-- An access changes nothing but what the locks protect, and what it changes and what follows
depends on nothing else. -/
structure Local (held : List Lock) (update : State → State)
    (rest : State → Program Lock State α) (state : State) : Prop where
  changes : ∀ lock, lock ∉ held → (discipline.protects lock).r state (update state)
  updates : ∀ other, discipline.Agree held state other →
    discipline.Agree held (update state) (update other)
  reads : ∀ other, discipline.Agree held state other → rest other = rest state

/-- The program is safe with these locks held, in every state that agrees with the given one
on what they protect, and it ends as the postcondition says. -/
def Safe (post : α → List Lock → State → Prop) : Program Lock State α → List Lock → State → Prop
  | .done result, held, state => ∀ other, discipline.Agree held state other →
      post result held other
  | .acquire lock rest, held, state =>
      (∀ before ∈ held, discipline.rank before < discipline.rank lock) ∧
        ∀ other, discipline.Agree held state other → Safe post rest (lock :: held) other
  | .release lock rest, held, state => ∃ others, held = lock :: others ∧
      ∀ other, discipline.Agree others state other → Safe post rest others other
  | .access update rest, held, state => ∀ other, discipline.Agree held state other →
      discipline.Local held update rest other ∧ Safe post (rest other) held (update other)
  | .await condition rest, held, state => ∀ other, discipline.Agree held state other →
      condition other = true ∧ Safe post rest held other

variable {discipline} {held : List Lock} {state other : State}
  {post strong : α → List Lock → State → Prop} {program : Program Lock State α}

theorem Agree.refl (held : List Lock) (state : State) : discipline.Agree held state state :=
  fun lock _ => (discipline.protects lock).refl state

theorem Agree.trans {third : State} (first : discipline.Agree held state other)
    (second : discipline.Agree held other third) : discipline.Agree held state third :=
  fun lock member => (discipline.protects lock).trans (first lock member) (second lock member)

theorem Agree.mono {fewer : List Lock} (agree : discipline.Agree held state other)
    (subset : ∀ lock ∈ fewer, lock ∈ held) : discipline.Agree fewer state other :=
  fun lock member => agree lock (subset lock member)

theorem Agree.tail {lock : Lock} (agree : discipline.Agree (lock :: held) state other) :
    discipline.Agree held state other := agree.mono fun _ member => List.mem_cons_of_mem _ member

/-- What other threads do to the rest of the state does not matter. -/
theorem Safe.stable (safe : discipline.Safe post program held state)
    (agree : discipline.Agree held state other) : discipline.Safe post program held other := by
  cases program with
  | done result => exact fun third later => safe third (agree.trans later)
  | acquire lock rest => exact ⟨safe.1, fun third later => safe.2 third (agree.trans later)⟩
  | release lock rest =>
      obtain ⟨others, rfl, kept⟩ := safe
      exact ⟨others, rfl, fun third later => kept third (agree.tail.trans later)⟩
  | access update rest => exact fun third later => safe third (agree.trans later)
  | await condition rest => exact fun third later => safe third (agree.trans later)

/-! ## Rules -/

theorem Safe.weaken (safe : discipline.Safe strong program held state)
    (weaker : ∀ result held state, strong result held state → post result held state) :
    discipline.Safe post program held state := by
  induction program generalizing held state with
  | done result => exact fun other agree => weaker _ _ _ (safe other agree)
  | acquire lock rest ih => exact ⟨safe.1, fun other agree => ih (safe.2 other agree)⟩
  | release lock rest ih =>
      obtain ⟨others, same, kept⟩ := safe
      exact ⟨others, same, fun other agree => ih (kept other agree)⟩
  | access update rest ih =>
      exact fun other agree => ⟨(safe other agree).1, ih other (safe other agree).2⟩
  | await condition rest ih =>
      exact fun other agree => ⟨(safe other agree).1, ih (safe other agree).2⟩

theorem safe_bind {next : α → Program Lock State β} {post : β → List Lock → State → Prop}
    (safe : discipline.Safe (fun result held state => discipline.Safe post (next result) held state)
      program held state) : discipline.Safe post (program >>= next) held state := by
  change discipline.Safe post (program.bind next) held state
  induction program generalizing held state with
  | done result => exact safe state (Agree.refl held state)
  | acquire lock rest ih => exact ⟨safe.1, fun other agree => ih (safe.2 other agree)⟩
  | release lock rest ih =>
      obtain ⟨others, same, kept⟩ := safe
      exact ⟨others, same, fun other agree => ih (kept other agree)⟩
  | access update rest ih =>
      intro other agree
      obtain ⟨local_, after⟩ := safe other agree
      refine ⟨⟨local_.changes, local_.updates, fun third later => ?_⟩, ih other after⟩
      exact congrArg (fun program => Program.bind program next) (local_.reads third later)
  | await condition rest ih =>
      exact fun other agree => ⟨(safe other agree).1, ih (safe other agree).2⟩

theorem safe_withLock {lock : Lock}
    (ranked : ∀ before ∈ held, discipline.rank before < discipline.rank lock)
    (safe : ∀ other, discipline.Agree held state other →
      discipline.Safe (fun result after last => after = lock :: held ∧
        ∀ other, discipline.Agree held last other → post result held other)
        program (lock :: held) other) :
    discipline.Safe post (Program.withLock lock program) held state := by
  refine ⟨ranked, fun other agree => ?_⟩
  refine safe_bind ((safe other agree).weaken ?_)
  intro result after last ended
  obtain ⟨rfl, kept⟩ := ended
  exact ⟨held, rfl, fun third later fourth last => kept fourth (later.trans last)⟩

/-- What is read is protected by the locks that are held. -/
theorem safe_read {function : State → α}
    (depends : ∀ state other, discipline.Agree held state other → function other = function state)
    (post_ : ∀ other, discipline.Agree held state other → post (function state) held other) :
    discipline.Safe post (Program.read function) held state := by
  intro other agree
  refine ⟨⟨fun lock _ => (discipline.protects lock).refl other, fun third later => later,
    fun third later => congrArg Program.done (depends other third later)⟩, ?_⟩
  intro third later
  rw [depends state other agree]
  exact post_ third (agree.trans later)

/-- What is changed is protected by the locks that are held. -/
theorem safe_modifyGet {function : State → α × State}
    (changes : ∀ state lock, lock ∉ held → (discipline.protects lock).r state (function state).2)
    (updates : ∀ state other, discipline.Agree held state other →
      discipline.Agree held (function state).2 (function other).2)
    (reads : ∀ state other, discipline.Agree held state other →
      (function other).1 = (function state).1)
    (post_ : ∀ other, discipline.Agree held (function state).2 other →
      post (function state).1 held other) :
    discipline.Safe post (Program.modifyGet function) held state := by
  intro other agree
  refine ⟨⟨changes other, updates other,
    fun third later => congrArg Program.done (reads other third later)⟩, ?_⟩
  intro third later
  rw [reads state other agree]
  exact post_ third ((updates state other agree).trans later)

theorem safe_write {update : State → State} {post : PUnit → List Lock → State → Prop}
    (changes : ∀ state lock, lock ∉ held → (discipline.protects lock).r state (update state))
    (updates : ∀ state other, discipline.Agree held state other →
      discipline.Agree held (update state) (update other))
    (post_ : ∀ other, discipline.Agree held (update state) other → post ⟨⟩ held other) :
    discipline.Safe post (Program.write update) held state := by
  intro other agree
  refine ⟨⟨changes other, updates other, fun _ _ => rfl⟩, ?_⟩
  exact fun third later => post_ third ((updates state other agree).trans later)

theorem safe_await {condition : State → Bool}
    (holds : ∀ other, discipline.Agree held state other → condition other = true)
    (safe : discipline.Safe post program held state) :
    discipline.Safe post (.await condition program) held state :=
  fun other agree => ⟨holds other agree, safe.stable agree⟩

/-! ## Programs that are safe in every state -/

variable (discipline) in
/-- The program is safe whatever the state is, and ends with the locks that it began with. -/
def Keeps (held : List Lock) (program : Program Lock State α) : Prop :=
  ∀ state, discipline.Safe (fun _ after _ => after = held) program held state

theorem keeps_pure (result : α) : discipline.Keeps held (pure result) := fun _ _ _ => rfl

theorem Keeps.bind {next : α → Program Lock State β} (keeps : discipline.Keeps held program)
    (after : ∀ result, discipline.Keeps held (next result)) :
    discipline.Keeps held (program >>= next) := by
  intro state
  refine safe_bind ((keeps state).weaken ?_)
  intro result last state same
  subst same
  exact after result state

theorem Keeps.withLock {lock : Lock}
    (ranked : ∀ before ∈ held, discipline.rank before < discipline.rank lock)
    (keeps : discipline.Keeps (lock :: held) program) :
    discipline.Keeps held (Program.withLock lock program) := by
  intro state
  refine safe_withLock ranked fun other _ => (keeps other).weaken ?_
  exact fun _ _ _ same => ⟨same, fun _ _ => rfl⟩

theorem keeps_read {function : State → α}
    (depends : ∀ state other, discipline.Agree held state other → function other = function state) :
    discipline.Keeps held (Program.read function) :=
  fun _ => safe_read depends fun _ _ => rfl

/-- The access treats each part of the state on its own. -/
def Respects (discipline : Discipline Lock State) (update : State → State) : Prop :=
  ∀ lock state other, (discipline.protects lock).r state other →
    (discipline.protects lock).r (update state) (update other)

theorem Respects.agree {update : State → State} (respects : discipline.Respects update)
    (agree : discipline.Agree held state other) :
    discipline.Agree held (update state) (update other) :=
  fun lock member => respects lock state other (agree lock member)

theorem keeps_write {update : State → State} (respects : discipline.Respects update)
    (changes : ∀ state lock, lock ∉ held → (discipline.protects lock).r state (update state)) :
    discipline.Keeps held (Program.write update) :=
  fun _ => safe_write changes (fun _ _ agree => respects.agree agree) fun _ _ => rfl

theorem keeps_modifyGet {function : State → α × State}
    (respects : discipline.Respects fun state => (function state).2)
    (changes : ∀ state lock, lock ∉ held → (discipline.protects lock).r state (function state).2)
    (reads : ∀ state other, discipline.Agree held state other →
      (function other).1 = (function state).1) :
    discipline.Keeps held (Program.modifyGet function) :=
  fun _ => safe_modifyGet changes (fun _ _ agree => respects.agree agree) reads fun _ _ => rfl

end Discipline

end Locks
