import Mathlib.Data.List.Basic
import Mathlib.Data.List.Infix

/-!
# Machines with labelled partial steps

A machine is a transition function over labelled events; an event that is not
enabled in a state has no successor. A list of events is one interleaving of the
machine's parties, so a statement about every run is a statement about every
list of events whose steps are all enabled.

Two rules carry the safety proofs. `run_invariant` lifts a property kept by each
step to every run. `run_invariant_of_guarded` does the same for the runs whose
steps all meet a side condition on the state before the step.
-/

universe u v

/-- A transition function over labelled events and the state it starts from. -/
structure Machine (State : Type u) (Event : Type v) where
  init : State
  step : State → Event → Option State

namespace Machine

variable {State : Type u} {Event : Type v} (M : Machine State Event)

/-- The state after a list of events, when each of them is enabled in its turn. -/
def runFrom (state : State) (events : List Event) : Option State :=
  events.foldlM M.step state

/-- The state after a list of events from the initial state. -/
def run (events : List Event) : Option State :=
  M.runFrom M.init events

@[simp] theorem runFrom_nil (state : State) : M.runFrom state [] = some state := rfl

theorem runFrom_cons (state : State) (event : Event) (events : List Event) :
    M.runFrom state (event :: events) =
      (M.step state event).bind fun next => M.runFrom next events := rfl

theorem runFrom_append (state : State) (first second : List Event) :
    M.runFrom state (first ++ second) =
      (M.runFrom state first).bind fun next => M.runFrom next second := by
  unfold runFrom
  rw [List.foldlM_append]
  rfl

theorem run_append (first second : List Event) :
    M.run (first ++ second) = (M.run first).bind fun next => M.runFrom next second :=
  M.runFrom_append M.init first second

theorem run_concat (events : List Event) (event : Event) :
    M.run (events ++ [event]) = (M.run events).bind fun state => M.step state event := by
  rw [run_append]
  congr 1
  funext state
  rw [runFrom_cons]
  simp only [runFrom_nil, Option.bind_fun_some]

/-- Every prefix of a run is a run. -/
theorem run_of_initial {first events : List Event} {last : State} (before : first <+: events)
    (ran : M.run events = some last) : ∃ state, M.run first = some state := by
  obtain ⟨second, rfl⟩ := before
  rw [run_append] at ran
  obtain ⟨state, reached, _⟩ := Option.bind_eq_some_iff.mp ran
  exact ⟨state, reached⟩

/-- **Invariant rule.** A property kept by every enabled step holds at the end of
every run that starts in it. -/
theorem runFrom_invariant (property : State → Prop)
    (kept : ∀ state event next, property state → M.step state event = some next → property next)
    (events : List Event) :
    ∀ state last, property state → M.runFrom state events = some last → property last := by
  induction events with
  | nil =>
      intro state last start ran
      cases Option.some.inj ran
      exact start
  | cons event events ih =>
      intro state last start ran
      rw [runFrom_cons] at ran
      obtain ⟨next, stepped, rest⟩ := Option.bind_eq_some_iff.mp ran
      exact ih next last (kept state event next start stepped) rest

theorem run_invariant (property : State → Prop) (start : property M.init)
    (kept : ∀ state event next, property state → M.step state event = some next → property next)
    (events : List Event) (last : State) (ran : M.run events = some last) : property last :=
  M.runFrom_invariant property kept events M.init last start ran

/-- **Invariant rule with history.** A property of the events so far and the state they
lead to holds of every run when each enabled step extends it by its event. -/
theorem run_history_invariant (property : List Event → State → Prop)
    (start : property [] M.init)
    (kept : ∀ events state event next, property events state →
      M.step state event = some next → property (events ++ [event]) next)
    (events : List Event) :
    ∀ last, M.run events = some last → property events last := by
  induction events using List.reverseRecOn with
  | nil =>
      intro last ran
      cases Option.some.inj ran
      exact start
  | append_singleton events event ih =>
      intro last ran
      rw [run_concat] at ran
      obtain ⟨state, reached, stepped⟩ := Option.bind_eq_some_iff.mp ran
      exact kept events state event last (ih state reached) stepped

/-- What is observed at the steps of a run, one after the other. -/
def collect {Observation : Type*} (observe : State → Event → List Observation) :
    State → List Event → List Observation
  | _, [] => []
  | state, event :: events =>
      observe state event ++
        match M.step state event with
        | some next => collect observe next events
        | none => []

/-- **Log rule.** A log to which each step appends what is observed at it has, after a run, what
was observed along the run. -/
theorem runFrom_log {Observation : Type*} {observe : State → Event → List Observation}
    {log : State → List Observation}
    (logged : ∀ state event next, M.step state event = some next →
      log next = log state ++ observe state event) (events : List Event) :
    ∀ state last, M.runFrom state events = some last →
      log last = log state ++ M.collect observe state events := by
  induction events with
  | nil =>
      intro state last ran
      cases Option.some.inj ran
      exact (List.append_nil _).symm
  | cons event events ih =>
      intro state last ran
      rw [runFrom_cons] at ran
      obtain ⟨next, stepped, rest⟩ := Option.bind_eq_some_iff.mp ran
      rw [ih next last rest, logged state event next stepped, List.append_assoc]
      simp only [collect, stepped]

theorem run_log {Observation : Type*} {observe : State → Event → List Observation}
    {log : State → List Observation} (start : log M.init = [])
    (logged : ∀ state event next, M.step state event = some next →
      log next = log state ++ observe state event) (events : List Event) (last : State)
    (ran : M.run events = some last) : log last = M.collect observe M.init events := by
  rw [M.runFrom_log logged events M.init last ran, start, List.nil_append]

/-- Every step of the run meets the condition in the state in which it is taken. -/
def Guarded (guard : State → Event → Prop) : State → List Event → Prop
  | _, [] => True
  | state, event :: events =>
      guard state event ∧ ∀ next, M.step state event = some next → Guarded guard next events

/-- A decidable condition can be checked along a run. -/
def decideGuarded (guard : State → Event → Prop) [∀ state event, Decidable (guard state event)] :
    ∀ state events, Decidable (M.Guarded guard state events)
  | _, [] => .isTrue trivial
  | state, event :: events =>
      match stepped : M.step state event with
      | none => decidable_of_iff (guard state event) (by simp [Guarded, stepped])
      | some next =>
          have := decideGuarded guard next events
          decidable_of_iff (guard state event ∧ M.Guarded guard next events)
            (by simp [Guarded, stepped])

instance (guard : State → Event → Prop) [∀ state event, Decidable (guard state event)]
    (state : State) (events : List Event) : Decidable (M.Guarded guard state events) :=
  M.decideGuarded guard state events

variable {M} in
/-- Checking one more step of a run whose successor state is known. -/
theorem Guarded.cons {guard : State → Event → Prop} {state next : State} {event : Event}
    {events : List Event} (here : guard state event) (stepped : M.step state event = some next)
    (rest : M.Guarded guard next events) : M.Guarded guard state (event :: events) := by
  refine ⟨here, fun other again => ?_⟩
  rw [stepped] at again
  cases Option.some.inj again
  exact rest

/-- The condition on the steps of a run, split at each of its events. -/
theorem guarded_iff (guard : State → Event → Prop) (events : List Event) :
    ∀ state, M.Guarded guard state events ↔
      ∀ first event second, events = first ++ event :: second →
        ∀ reached, M.runFrom state first = some reached → guard reached event := by
  induction events with
  | nil =>
      intro state
      refine ⟨fun _ first event second split => ?_, fun _ => trivial⟩
      exact absurd split.symm
        (List.append_ne_nil_of_right_ne_nil first (List.cons_ne_nil event second))
  | cons head tail ih =>
      intro state
      constructor
      · intro guarded first event second split reached ran
        obtain ⟨here, later⟩ := guarded
        cases first with
        | nil =>
            obtain ⟨rfl, _⟩ := List.cons.inj split
            cases Option.some.inj ran
            exact here
        | cons other first =>
            obtain ⟨rfl, tailSplit⟩ := List.cons.inj split
            rw [runFrom_cons] at ran
            obtain ⟨next, stepped, rest⟩ := Option.bind_eq_some_iff.mp ran
            exact (ih next).mp (later next stepped) first event second tailSplit reached rest
      · intro all
        refine ⟨all [] head tail rfl state rfl, fun next stepped => (ih next).mpr ?_⟩
        intro first event second split reached ran
        apply all (head :: first) event second (by rw [split]; rfl) reached
        rw [runFrom_cons, stepped]
        exact ran

/-- **Invariant rule for guarded runs.** A property kept by every enabled step
that meets the condition holds at the end of every run whose steps all meet it. -/
theorem runFrom_invariant_of_guarded {guard : State → Event → Prop} {property : State → Prop}
    (kept : ∀ state event next, property state → guard state event →
      M.step state event = some next → property next)
    (events : List Event) :
    ∀ state last, property state → M.Guarded guard state events →
      M.runFrom state events = some last → property last := by
  induction events with
  | nil =>
      intro state last start _ ran
      cases Option.some.inj ran
      exact start
  | cons event events ih =>
      intro state last start guarded ran
      rw [runFrom_cons] at ran
      obtain ⟨next, stepped, rest⟩ := Option.bind_eq_some_iff.mp ran
      exact ih next last (kept state event next start guarded.1 stepped)
        (guarded.2 next stepped) rest

theorem run_invariant_of_guarded (guard : State → Event → Prop) (property : State → Prop)
    (start : property M.init)
    (kept : ∀ state event next, property state → guard state event →
      M.step state event = some next → property next)
    (events : List Event) (last : State) (guarded : M.Guarded guard M.init events)
    (ran : M.run events = some last) : property last :=
  M.runFrom_invariant_of_guarded kept events M.init last start guarded ran

/-- **Dichotomy rule.** When a step that meets the condition keeps a property, a step that
does not meet it leads to another one, and all steps keep the latter, a run meets the
condition or ends in the other property. -/
theorem runFrom_guarded_or {guard : State → Event → Prop} {good bad : State → Prop}
    (kept : ∀ state event next, good state → guard state event →
      M.step state event = some next → good next)
    (lost : ∀ state event next, good state → ¬ guard state event →
      M.step state event = some next → bad next)
    (stays : ∀ state event next, bad state → M.step state event = some next → bad next)
    (events : List Event) :
    ∀ state last, good state → M.runFrom state events = some last →
      M.Guarded guard state events ∨ bad last := by
  induction events with
  | nil => exact fun _ _ _ _ => Or.inl trivial
  | cons event events ih =>
      intro state last start ran
      rw [runFrom_cons] at ran
      obtain ⟨next, stepped, rest⟩ := Option.bind_eq_some_iff.mp ran
      by_cases here : guard state event
      · rcases ih next last (kept state event next start here stepped) rest with later | ended
        · exact Or.inl (Guarded.cons here stepped later)
        · exact Or.inr ended
      · right
        exact M.runFrom_invariant bad stays events next last
          (lost state event next start here stepped) rest

/-- **Lasting trace rule.** When a step that does not meet the condition leaves a trace and later
steps keep it, a run without the trace in the end met the condition in every step. -/
theorem run_guarded_of_not {guard : State → Event → Prop} {invariant trace : State → Prop}
    (start : invariant M.init)
    (kept : ∀ state event next, invariant state →
      M.step state event = some next → invariant next)
    (lost : ∀ state event next, invariant state → ¬ guard state event →
      M.step state event = some next → trace next)
    (stays : ∀ state event next, invariant state → trace state →
      M.step state event = some next → trace next)
    {events : List Event} {last : State} (ran : M.run events = some last)
    (never : ¬ trace last) : M.Guarded guard M.init events := by
  have keptBoth : ∀ state event next, invariant state → guard state event →
      M.step state event = some next → invariant next :=
    fun state event next sound _ stepped => kept state event next sound stepped
  have lostBoth : ∀ state event next, invariant state → ¬ guard state event →
      M.step state event = some next → invariant next ∧ trace next :=
    fun state event next sound unmet stepped =>
      ⟨kept state event next sound stepped, lost state event next sound unmet stepped⟩
  have staysBoth : ∀ state event next, invariant state ∧ trace state →
      M.step state event = some next → invariant next ∧ trace next :=
    fun state event next both stepped =>
      ⟨kept state event next both.1 stepped, stays state event next both.1 both.2 stepped⟩
  have either := M.runFrom_guarded_or keptBoth lostBoth staysBoth events M.init last start ran
  exact either.resolve_right fun both => never both.2

/-- A condition on events alone holds along a run when it holds of its events. -/
theorem guarded_of_forall {guard : Event → Prop} {events : List Event}
    (all : ∀ event ∈ events, guard event) (state : State) :
    M.Guarded (fun _ event => guard event) state events := by
  rw [guarded_iff]
  rintro first event second rfl _ _
  exact all event (by simp)

theorem Guarded.and {first second : State → Event → Prop} {events : List Event} :
    ∀ {state : State}, M.Guarded first state events → M.Guarded second state events →
      M.Guarded (fun state event => first state event ∧ second state event) state events := by
  induction events with
  | nil => exact fun _ _ => trivial
  | cons event events ih =>
      intro state left right
      exact ⟨⟨left.1, right.1⟩, fun next stepped => ih (left.2 next stepped) (right.2 next stepped)⟩

/-- The guarded condition only depends on the run up to its prefixes. -/
theorem Guarded.initial {guard : State → Event → Prop} {state : State} {first events : List Event}
    (before : first <+: events) (guarded : M.Guarded guard state events) :
    M.Guarded guard state first := by
  obtain ⟨rest, rfl⟩ := before
  rw [guarded_iff] at guarded ⊢
  intro left event right split
  exact guarded left event (right ++ rest) (by rw [split]; simp)

/-- **Exactness rule.** When a step from a state with a property keeps it exactly if the step meets
the condition, the property holds throughout a run exactly if all its steps meet the condition. -/
theorem run_throughout_iff {guard : State → Event → Prop} {property : State → Prop}
    (start : property M.init)
    (step_iff : ∀ state event next, property state → M.step state event = some next →
      (property next ↔ guard state event))
    {events : List Event} {last : State} (ran : M.run events = some last) :
    (∀ first state, first <+: events → M.run first = some state → property state) ↔
      M.Guarded guard M.init events := by
  constructor
  · intro throughout
    rw [guarded_iff]
    rintro first event second rfl reached reachedRan
    have here := throughout first reached (List.prefix_append first _) reachedRan
    have further : first ++ [event] <+: first ++ event :: second :=
      ⟨second, List.append_assoc first [event] second⟩
    obtain ⟨next, nextRan⟩ := M.run_of_initial further ran
    have after := throughout _ next further nextRan
    rw [run_concat, show M.run first = some reached from reachedRan] at nextRan
    exact (step_iff reached event next here nextRan).mp after
  · intro guarded first state before reached
    refine M.run_invariant_of_guarded guard property start ?_ first state
      (Guarded.initial M before guarded) reached
    intro state event next here met stepped
    exact (step_iff state event next here stepped).mpr met

/-- Every step of a history meets a condition on the events before it, the state in which it is
taken and the event. -/
def Each (guard : List Event → State → Event → Prop) (events : List Event) : Prop :=
  ∀ first event second, events = first ++ event :: second →
    ∀ state, M.run first = some state → guard first state event

theorem each_nil (guard : List Event → State → Event → Prop) : M.Each guard [] := by
  intro first event second split
  exact absurd split.symm
    (List.append_ne_nil_of_right_ne_nil first (List.cons_ne_nil event second))

/-- One more step of a history. -/
theorem each_concat (guard : List Event → State → Event → Prop) {events : List Event}
    {state : State} (ran : M.run events = some state) (event : Event) :
    M.Each guard (events ++ [event]) ↔ M.Each guard events ∧ guard events state event := by
  constructor
  · intro all
    refine ⟨?_, all events event [] rfl state ran⟩
    intro first earlier second split
    apply all first earlier (second ++ [event])
    rw [split]
    simp
  · rintro ⟨all, here⟩ first other second split reached reachedRan
    rcases List.eq_nil_or_concat second with rfl | ⟨middle, last, rfl⟩
    · obtain ⟨rfl, same⟩ := List.append_inj' split rfl
      cases same
      cases ran.symm.trans reachedRan
      exact here
    · rw [List.concat_eq_append, ← List.cons_append, ← List.append_assoc] at split
      exact all first other middle (List.append_inj' split rfl).1 reached reachedRan

end Machine
