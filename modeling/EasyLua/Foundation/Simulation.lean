import EasyLua.Foundation.Machine

/-!
# Simulation of one machine by another

When each step of a machine is answered by steps of another one that keep their states related,
each run is answered by a run of the other machine, round by round.
-/

universe u v

namespace Machine

variable {State Other : Type u} {Event Answer : Type v}

/-- Each step of the first machine is answered by steps of the second one. -/
structure Simulates (M : Machine State Event) (N : Machine Other Answer)
    (related : State → Other → Prop) (answers : Event → List Answer → Prop) : Prop where
  init : related M.init N.init
  step : ∀ {state next other event}, related state other → M.step state event = some next →
    ∃ events last, answers event events ∧ N.runFrom other events = some last ∧ related next last

/-- After these rounds both machines have run, and their states are related. -/
def Reached (M : Machine State Event) (N : Machine Other Answer)
    (related : State → Other → Prop) (rounds : List (Event × List Answer)) : Prop :=
  ∃ state other, M.run (rounds.map Prod.fst) = some state ∧
    N.run (rounds.flatMap Prod.snd) = some other ∧ related state other

variable {M : Machine State Event} {N : Machine Other Answer} {related : State → Other → Prop}
  {answers : Event → List Answer → Prop}

/-- **Simulation rule.** Each run is answered, and after each of its rounds the states are
related. -/
theorem Simulates.run (simulates : M.Simulates N related answers) (events : List Event) :
    ∀ last, M.run events = some last → ∃ rounds : List (Event × List Answer),
      rounds.map Prod.fst = events ∧ (∀ round ∈ rounds, answers round.1 round.2) ∧
        ∀ first, first <+: rounds → M.Reached N related first := by
  have start : M.Reached N related [] := ⟨M.init, N.init, rfl, rfl, simulates.init⟩
  induction events using List.reverseRecOn with
  | nil =>
      refine fun _ _ => ⟨[], rfl, List.forall_mem_nil _, fun first before => ?_⟩
      rw [List.prefix_nil.mp before]
      exact start
  | append_singleton events event ih =>
      intro last ran
      rw [run_concat] at ran
      obtain ⟨state, reached, stepped⟩ := Option.bind_eq_some_iff.mp ran
      obtain ⟨rounds, same, answered, every⟩ := ih state reached
      obtain ⟨before, other, mine, its, relates⟩ := every rounds (List.prefix_refl rounds)
      rw [same, reached] at mine
      obtain rfl := Option.some.inj mine
      obtain ⟨answer, after, fits, answeredRun, relatesAfter⟩ := simulates.step relates stepped
      refine ⟨rounds ++ [(event, answer)], ?_, ?_, fun first before => ?_⟩
      · rw [List.map_append, same]
        rfl
      · intro round member
        rcases List.mem_append.mp member with old | new
        · exact answered round old
        · rw [List.mem_singleton.mp new]
          exact fits
      · rcases List.prefix_concat_iff.mp before with rfl | earlier
        · refine ⟨last, after, ?_, ?_, relatesAfter⟩
          · rw [List.map_append, same, List.map_singleton, run_concat, reached]
            exact stepped
          · rw [List.flatMap_append, run_append, its]
            simp only [List.flatMap_cons, List.flatMap_nil, List.append_nil, Option.bind_some]
            exact answeredRun
        · exact every first earlier

end Machine
