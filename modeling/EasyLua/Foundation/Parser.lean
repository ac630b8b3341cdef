import Mathlib.Data.List.Basic

/-!
# Parsers of lists and programs that simulate them

A parser consumes the front of a list and may fail. `Sufficient` says that inputs below
a bound never lead to certain failures and that success consumes at least so many
symbols; it composes along `bind`, so the fuel of a recursive parser is bounded by the
length of its input. `Extends` says that a parser gives the same answer on an input that
goes on, so the end of the input is all that more input can change. `Simulates` relates a
program with a mutable state to a parser: from related states both succeed with the same
value in related states, or both fail.
-/

universe u

/-- Parsers of lists that may fail. -/
abbrev Parser (Symbol Failure : Type) (α : Type) := StateT (List Symbol) (Except Failure) α

namespace Parser

variable {Symbol Failure α β : Type}

/-- The first `count` symbols. -/
def take (short : Failure) (count : Nat) : Parser Symbol Failure (List Symbol) := fun input =>
  if count ≤ input.length then .ok (input.take count, input.drop count) else .error short

/-- A value at the end of the input, and a parser elsewhere. -/
def orEnd (value : α) (parser : Parser Symbol Failure α) : Parser Symbol Failure α :=
  fun input =>
    match input with
    | [] => .ok (value, [])
    | _ :: _ => parser input

theorem orEnd_of_ne_nil (value : α) (parser : Parser Symbol Failure α) {input : List Symbol}
    (more : input ≠ []) : orEnd value parser input = parser input := by
  cases input with
  | nil => exact absurd rfl more
  | cons symbol input => rfl

/-- The second parser runs on what the first one leaves. -/
theorem bind_run (parser : Parser Symbol Failure α) (next : α → Parser Symbol Failure β)
    (input : List Symbol) :
    (parser >>= next) input = match parser input with
      | .ok (value, rest) => next value rest
      | .error failure => .error failure := by
  change (parser input >>= fun result => next result.1 result.2) = _
  cases parser input <;> rfl

/-- What a sequence of two parsers returns. -/
theorem of_bind_ok {parser : Parser Symbol Failure α} {next : α → Parser Symbol Failure β}
    {input rest : List Symbol} {value : β} (parsed : (parser >>= next) input = .ok (value, rest)) :
    ∃ first middle, parser input = .ok (first, middle) ∧ next first middle = .ok (value, rest) := by
  rw [bind_run] at parsed
  cases start : parser input with
  | ok pair =>
      rw [start] at parsed
      exact ⟨pair.1, pair.2, rfl, parsed⟩
  | error failure =>
      rw [start] at parsed
      exact nomatch parsed

theorem bind_run_of_ok {parser : Parser Symbol Failure α} {next : α → Parser Symbol Failure β}
    {input rest : List Symbol} {value : α} (parsed : parser input = .ok (value, rest)) :
    (parser >>= next) input = next value rest := by
  rw [bind_run, parsed]

theorem take_append (short : Failure) (front rest : List Symbol) :
    take short front.length (front ++ rest) = .ok (front, rest) := by
  unfold take
  rw [if_pos (by rw [List.length_append]; omega), List.take_left, List.drop_left]

theorem take_append_of_length (short : Failure) {front : List Symbol} (rest : List Symbol)
    {count : Nat} (length : front.length = count) :
    take short count (front ++ rest) = .ok (front, rest) := by
  subst length
  exact take_append short front rest

/-- On inputs shorter than `bound` the parser never fails with a bad failure, and it
consumes at least `least` symbols when it succeeds. -/
def Sufficient (bad : Failure → Prop) (bound least : Nat) (parser : Parser Symbol Failure α) :
    Prop :=
  ∀ input, input.length < bound →
    match parser input with
    | .ok (_, rest) => rest.length + least ≤ input.length
    | .error failure => ¬ bad failure

variable {bad : Failure → Prop} {bound least more : Nat}

theorem Sufficient.pure (value : α) :
    Sufficient bad bound 0 (Pure.pure value : Parser Symbol Failure α) :=
  fun _ _ => Nat.le_refl _

theorem Sufficient.throw {failure : Failure} (fine : ¬ bad failure) :
    Sufficient bad bound least (MonadExcept.throw failure : Parser Symbol Failure α) :=
  fun _ _ => fine

theorem Sufficient.take {short : Failure} (fine : ¬ bad short) (count : Nat) :
    Sufficient bad bound count (Parser.take short count : Parser Symbol Failure _) := by
  intro input _
  unfold Parser.take
  by_cases enough : count ≤ input.length
  · rw [if_pos enough]
    change (input.drop count).length + count ≤ input.length
    rw [List.length_drop]
    omega
  · rw [if_neg enough]
    exact fine

/-- Success consumes at least what is needed for it. -/
theorem Sufficient.consumes {parser : Parser Symbol Failure α} {input rest : List Symbol}
    {value : α} (sufficient : Sufficient bad bound least parser) (short : input.length < bound)
    (parsed : parser input = .ok (value, rest)) : rest.length + least ≤ input.length := by
  have result := sufficient input short
  rw [parsed] at result
  exact result

/-- On shorter inputs less has to be shown. -/
theorem Sufficient.mono {parser : Parser Symbol Failure α} {lower : Nat}
    (sufficient : Sufficient bad bound least parser) (below : lower ≤ bound) :
    Sufficient bad lower least parser :=
  fun input short => sufficient input (Nat.lt_of_lt_of_le short below)

/-- No input is shorter than nothing. -/
theorem Sufficient.zero (parser : Parser Symbol Failure α) : Sufficient bad 0 least parser :=
  fun _ short => absurd short (Nat.not_lt_zero _)

theorem Sufficient.orEnd (value : α) {parser : Parser Symbol Failure α}
    (sufficient : Sufficient bad bound 0 parser) :
    Sufficient bad bound 0 (Parser.orEnd value parser) := by
  intro input short
  cases input with
  | nil => exact Nat.le_refl 0
  | cons symbol input => exact sufficient (symbol :: input) short

theorem Sufficient.ite {condition : Prop} [Decidable condition]
    {parser other : Parser Symbol Failure α}
    (yes : Sufficient bad bound least parser) (no : Sufficient bad bound least other) :
    Sufficient bad bound least (if condition then parser else other) := by
  split
  · exact yes
  · exact no

/-- What is consumed need not be known. -/
theorem Sufficient.forget {parser : Parser Symbol Failure α}
    (sufficient : Sufficient bad bound least parser) : Sufficient bad bound 0 parser := by
  intro input short
  have result := sufficient input short
  split at result
  · omega
  · exact result

/-- What the first parser consumes lowers the bound for the second. -/
theorem Sufficient.bind {parser : Parser Symbol Failure α}
    {next : α → Parser Symbol Failure β} (first : Sufficient bad bound least parser)
    (second : ∀ value, Sufficient bad (bound - least) more (next value)) :
    Sufficient bad bound (least + more) (parser >>= next) := by
  intro input short
  have result := first input short
  rw [bind_run]
  cases parsed : parser input with
  | error failure =>
      rw [parsed] at result
      exact result
  | ok pair =>
      obtain ⟨value, rest⟩ := pair
      rw [parsed] at result
      have consumed : rest.length + least ≤ input.length := result
      have later := second value rest (by omega)
      change match next value rest with
        | .ok (_, rest) => rest.length + (least + more) ≤ input.length
        | .error failure => ¬ bad failure
      cases again : next value rest with
      | error failure =>
          rw [again] at later
          exact later
      | ok pair =>
          rw [again] at later
          have consumedAgain : pair.2.length + more ≤ rest.length := later
          change pair.2.length + (least + more) ≤ input.length
          omega

/-- When it does not matter what the first parser consumes. -/
theorem Sufficient.andThen {parser : Parser Symbol Failure α}
    {next : α → Parser Symbol Failure β} (first : Sufficient bad bound least parser)
    (second : ∀ value, Sufficient bad bound 0 (next value)) :
    Sufficient bad bound 0 (parser >>= next) :=
  first.forget.bind second

/-- A first symbol lowers the bound for the rest. -/
theorem Sufficient.step {parser : Parser Symbol Failure α}
    {next : α → Parser Symbol Failure β} (first : Sufficient bad (bound + 1) 1 parser)
    (second : ∀ value, Sufficient bad bound 0 (next value)) :
    Sufficient bad (bound + 1) 1 (parser >>= next) :=
  first.bind second

/-- What the first parser answers, the second answers also when the input goes on. Only an
unsettled failure says nothing about longer inputs. -/
def Extends (unsettled : Failure → Prop) (first second : Parser Symbol Failure α) : Prop :=
  ∀ input more, match first input with
    | .ok (value, rest) => second (input ++ more) = .ok (value, rest ++ more)
    | .error failure => unsettled failure ∨ second (input ++ more) = .error failure

namespace Extends

variable {unsettled : Failure → Prop} {first second : Parser Symbol Failure α}

theorem pure (value : α) :
    Extends unsettled (Pure.pure value) (Pure.pure value : Parser Symbol Failure α) :=
  fun _ _ => rfl

theorem throw (failure : Failure) :
    Extends unsettled (MonadExcept.throw failure)
      (MonadExcept.throw failure : Parser Symbol Failure α) :=
  fun _ _ => Or.inr rfl

theorem take {short : Failure} (open_ : unsettled short) (count : Nat) :
    Extends unsettled (Parser.take short count : Parser Symbol Failure _)
      (Parser.take short count) := by
  intro input more
  unfold Parser.take
  by_cases enough : count ≤ input.length
  · rw [if_pos enough, if_pos (by rw [List.length_append]; omega)]
    change Except.ok _ = Except.ok _
    rw [List.take_append_of_le_length enough, List.drop_append_of_le_length enough]
  · rw [if_neg enough]
    exact Or.inl open_

theorem ite {condition : Prop} [Decidable condition] {other next : Parser Symbol Failure α}
    (yes : Extends unsettled first second) (no : Extends unsettled other next) :
    Extends unsettled (if condition then first else other)
      (if condition then second else next) := by
  split
  · exact yes
  · exact no

theorem bind {next next' : α → Parser Symbol Failure β} (start : Extends unsettled first second)
    (later : ∀ value, Extends unsettled (next value) (next' value)) :
    Extends unsettled (first >>= next) (second >>= next') := by
  intro input more
  have result := start input more
  rw [bind_run]
  cases parsed : first input with
  | error failure =>
      rw [parsed] at result
      refine Or.imp_right (fun same => ?_) result
      rw [bind_run, same]
  | ok pair =>
      obtain ⟨value, rest⟩ := pair
      rw [parsed] at result
      change second (input ++ more) = .ok (value, rest ++ more) at result
      rw [bind_run_of_ok result]
      exact later value rest more

/-- What is settled on some input is answered on every longer one. -/
theorem ok (extends_ : Extends unsettled first second) {input rest : List Symbol} {value : α}
    (parsed : first input = .ok (value, rest)) (more : List Symbol) :
    second (input ++ more) = .ok (value, rest ++ more) := by
  have result := extends_ input more
  rw [parsed] at result
  exact result

end Extends

end Parser

/-! ## Simulation -/

section Simulation

variable {State View Failure Failure' α β : Type}

/-- From related states the program and the parser return the same value in related
states, or fail with related failures. -/
def Simulates (related : State → View → Prop) (failed : Failure → State → Failure' → Prop)
    (program : EStateM Failure State α) (parser : StateT View (Except Failure') α) : Prop :=
  ∀ state view, related state view →
    match program state, parser view with
    | .ok value after, .ok (value', view') => value = value' ∧ related after view'
    | .error failure after, .error failure' => failed failure after failure'
    | _, _ => False

/-- A program runs on from where its first part returns. -/
theorem bind_program_of_ok {program : EStateM Failure State α}
    {next : α → EStateM Failure State β} {state after : State} {value : α}
    (ran : program state = .ok value after) : (program >>= next) state = next value after := by
  change EStateM.bind program next state = _
  unfold EStateM.bind
  rw [ran]

/-- A program ends where its first part fails. -/
theorem bind_program_of_error {program : EStateM Failure State α}
    {next : α → EStateM Failure State β} {state after : State} {failure : Failure}
    (failed : program state = .error failure after) :
    (program >>= next) state = .error failure after := by
  change EStateM.bind program next state = _
  unfold EStateM.bind
  rw [failed]

/-- What a sequence of two programs returns. -/
theorem of_bind_program_ok {program : EStateM Failure State α}
    {next : α → EStateM Failure State β} {state after : State} {value : β}
    (ran : (program >>= next) state = .ok value after) :
    ∃ first middle, program state = .ok first middle ∧ next first middle = .ok value after := by
  change EStateM.bind program next state = _ at ran
  unfold EStateM.bind at ran
  cases start : program state with
  | ok first middle =>
      rw [start] at ran
      exact ⟨first, middle, rfl, ran⟩
  | error failure middle =>
      rw [start] at ran
      exact nomatch ran

namespace Simulates

variable {related : State → View → Prop} {failed : Failure → State → Failure' → Prop}

theorem pure (value : α) :
    Simulates related failed (Pure.pure value) (Pure.pure value) :=
  fun _ _ relation => ⟨rfl, relation⟩

theorem throw {failure : Failure} {failure' : Failure'}
    (both : ∀ state view, related state view → failed failure state failure') :
    Simulates related failed (MonadExcept.throw failure : EStateM Failure State α)
      (MonadExcept.throw failure') :=
  fun state view relation => both state view relation

/-- Simulations compose along `bind`; of what the parser returns only the values it can
return matter. -/
theorem bind_of_returns {program : EStateM Failure State α}
    {parser : StateT View (Except Failure') α} {good : α → Prop}
    {next : α → EStateM Failure State β} {next' : α → StateT View (Except Failure') β}
    (first : Simulates related failed program parser)
    (returns : ∀ view value view', parser view = .ok (value, view') → good value)
    (second : ∀ value, good value → Simulates related failed (next value) (next' value)) :
    Simulates related failed (program >>= next) (parser >>= next') := by
  intro state view relation
  have start := first state view relation
  change match (EStateM.bind program next state), (parser view >>= fun result =>
    next' result.1 result.2) with
    | .ok value after, .ok (value', view') => value = value' ∧ related after view'
    | .error failure after, .error failure' => failed failure after failure'
    | _, _ => False
  unfold EStateM.bind
  cases ran : program state with
  | ok value after =>
      cases parsed : parser view with
      | ok pair =>
          obtain ⟨value', view'⟩ := pair
          rw [ran, parsed] at start
          obtain ⟨rfl, relation'⟩ := start
          exact second value (returns view value view' parsed) after view' relation'
      | error failure' =>
          rw [ran, parsed] at start
          exact start.elim
  | error failure after =>
      cases parsed : parser view with
      | ok pair =>
          rw [ran, parsed] at start
          exact start.elim
      | error failure' =>
          rw [ran, parsed] at start
          exact start

theorem bind {program : EStateM Failure State α} {parser : StateT View (Except Failure') α}
    {next : α → EStateM Failure State β} {next' : α → StateT View (Except Failure') β}
    (first : Simulates related failed program parser)
    (second : ∀ value, Simulates related failed (next value) (next' value)) :
    Simulates related failed (program >>= next) (parser >>= next') :=
  bind_of_returns first (fun _ _ _ _ => trivial) fun value _ => second value

theorem ite {condition : Prop} [Decidable condition] {program other : EStateM Failure State α}
    {parser other' : StateT View (Except Failure') α}
    (yes : condition → Simulates related failed program parser)
    (no : ¬ condition → Simulates related failed other other') :
    Simulates related failed (if condition then program else other)
      (if condition then parser else other') := by
  split
  · exact yes ‹_›
  · exact no ‹_›

/-- A simulated parser that succeeds makes its program succeed. -/
theorem ok {program : EStateM Failure State α} {parser : StateT View (Except Failure') α}
    (simulates : Simulates related failed program parser) {state : State} {view view' : View}
    {value : α} (relation : related state view) (parsed : parser view = .ok (value, view')) :
    ∃ after, program state = .ok value after ∧ related after view' := by
  have result := simulates state view relation
  rw [parsed] at result
  cases ran : program state with
  | ok value' after =>
      rw [ran] at result
      obtain ⟨rfl, relation'⟩ := result
      exact ⟨after, rfl, relation'⟩
  | error failure after =>
      rw [ran] at result
      exact result.elim

/-- A simulated parser that fails makes its program fail. -/
theorem error {program : EStateM Failure State α} {parser : StateT View (Except Failure') α}
    (simulates : Simulates related failed program parser) {state : State} {view : View}
    {failure' : Failure'} (relation : related state view)
    (parsed : parser view = .error failure') :
    ∃ failure after, program state = .error failure after ∧ failed failure after failure' := by
  have result := simulates state view relation
  rw [parsed] at result
  cases ran : program state with
  | ok value after =>
      rw [ran] at result
      exact result.elim
  | error failure after =>
      rw [ran] at result
      exact ⟨failure, after, rfl, result⟩

end Simulates

end Simulation
