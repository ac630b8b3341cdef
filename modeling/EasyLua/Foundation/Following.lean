import EasyLua.Foundation.Parser

/-!
# Programs that follow other programs

Two programs with errors and states of their own run side by side. The first one follows the
second when it returns where the second returns and fails where it fails; besides, it may stop
for reasons that the second one does not have. The rules compose this along `bind`.
-/

namespace Following

variable {Failure State α β γ : Type} {Failure' State' α' β' : Type}

/-- The first run ends as the second one does, or it has stopped. -/
def Matches (stops : Failure → State → Prop)
    (fails : Failure → State → Failure' → State' → Prop)
    (returns : α → State → α' → State' → Prop) :
    EStateM.Result Failure State α → EStateM.Result Failure' State' α' → Prop
  | .ok value state, .ok value' state' => returns value state value' state'
  | .error failure state, .ok _ _ => stops failure state
  | .error failure state, .error failure' state' =>
      stops failure state ∨ fails failure state failure' state'
  | .ok _ _, .error _ _ => False

variable {stops stops' : Failure → State → Prop}
  {fails : Failure → State → Failure' → State' → Prop}
  {returns returns' : α → State → α' → State' → Prop}
  {run : EStateM.Result Failure State α} {run' : EStateM.Result Failure' State' α'}

theorem Matches.stop {failure : Failure} {state : State} (stopped : stops failure state) :
    Matches stops fails returns (.error failure state) run' := by
  cases run' with
  | ok value' state' => exact stopped
  | error failure' state' => exact Or.inl stopped

theorem Matches.fail {failure : Failure} {state : State} {failure' : Failure'} {state' : State'}
    (failed : fails failure state failure' state') :
    Matches stops fails returns (.error failure state) (.error failure' state') :=
  Or.inr failed

theorem Matches.weaken (matched : Matches stops fails returns run run')
    (stopped : ∀ failure state, stops failure state → stops' failure state)
    (returned : ∀ value state value' state', returns value state value' state' →
      returns' value state value' state') : Matches stops' fails returns' run run' := by
  cases run with
  | ok value state =>
      cases run' with
      | ok value' state' => exact returned value state value' state' matched
      | error failure' state' => exact matched
  | error failure state =>
      cases run' with
      | ok value' state' => exact stopped failure state matched
      | error failure' state' => exact Or.imp_left (stopped failure state) matched

/-- What follows need only be followed from where the first parts can return. -/
theorem Matches.bind {program : EStateM Failure State α} {program' : EStateM Failure' State' α'}
    {next : α → EStateM Failure State β} {next' : α' → EStateM Failure' State' β'}
    {after : β → State → β' → State' → Prop} {state : State} {state' : State'}
    (first : Matches stops fails returns (program state) (program' state'))
    (second : ∀ value state value' state', returns value state value' state' →
      Matches stops fails after (next value state) (next' value' state')) :
    Matches stops fails after ((program >>= next) state) ((program' >>= next') state') := by
  change Matches stops fails after (EStateM.bind program next state)
    (EStateM.bind program' next' state')
  unfold EStateM.bind
  cases ran : program state with
  | ok value middle =>
      cases ran' : program' state' with
      | ok value' middle' =>
          rw [ran, ran'] at first
          exact second value middle value' middle' first
      | error failure' middle' =>
          rw [ran, ran'] at first
          exact first.elim
  | error failure middle =>
      rw [ran] at first
      cases ran' : program' state' with
      | ok value' middle' =>
          rw [ran'] at first
          exact Matches.stop first
      | error failure' middle' =>
          rw [ran'] at first
          exact first

end Following
