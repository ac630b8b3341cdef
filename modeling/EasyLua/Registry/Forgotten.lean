import EasyLua.Registry.Manager

/-!
# The names of a retired handle

`retire` drops the names of a handle in the branch in which it finds a living object of that
handle in its slot. An object that has died is never found again, and its names stay.
-/

namespace EasyLua

namespace Manager

open HandleManager

/-- The handle was returned by `checkIn`. -/
def Issued (world : World) (handle : UInt32) : Prop :=
  ∃ call < world.calls, world.issued call = handle

/-- No name is bound to the handle. -/
def Unnamed (world : World) (handle : UInt32) : Prop :=
  ∀ n ∈ world.manager.nameArray, n.handle ≠ handle

/-- The slot of the handle holds a living object of which `handle()` returns it. -/
def Held (world : World) (handle : UInt32) : Prop :=
  ∃ call, lockSlot world.alive world.manager.slot
    (HandleManager.hash handle world.manager.slot_size) = some call ∧ world.handle call = handle

/-- `retire` leaves no name of the handle, and it is not found again before it gets a new one. -/
structure Forgets (world : World) (handle : UInt32) : Prop where
  cleared : ∀ next, step world (.retire handle) = some next → Unnamed next handle
  forgotten : ∀ next, step world (.retire handle) = some next →
    ∀ more last, machine.runFrom next more = some last →
      (∀ name, .nameHandle handle name ∉ more) → ∀ name, last.manager.findName name ≠ handle

variable {world next : World} {handle : UInt32}

/-- Only `nameHandle` binds a name to a handle. -/
theorem unnamed_step (sound : Sound world) (unnamed : Unnamed world handle) {event : Event}
    (other : ∀ name, event ≠ .nameHandle handle name) (stepped : step world event = some next) :
    Unnamed next handle := by
  cases event with
  | construct own =>
      cases Option.some.inj stepped
      exact unnamed
  | die obj =>
      obtain ⟨_, rfl⟩ := step_die stepped
      exact unnamed
  | checkIn obj =>
      obtain ⟨number, checked⟩ := sound.checkedIn stepped
      unfold Unnamed
      rw [checked.nameArray]
      exact unnamed
  | retire asked =>
      cases Option.some.inj stepped
      intro n member
      exact unnamed n ((Placement.retire_less _ _ _ _).names.subset member)
  | retireAll =>
      obtain ⟨manager, returned, rfl⟩ := step_retireAll stepped
      intro n member
      exact unnamed n ((Placement.retireAll_spec _ _ returned).1.names.subset member)
  | grab asked =>
      cases Option.some.inj stepped
      exact unnamed
  | findName name =>
      cases Option.some.inj stepped
      exact unnamed
  | nameHandle bound name =>
      obtain ⟨_, manager, returned, rfl⟩ := step_nameHandle stepped
      have named := Names.nameHandle_named sound.increasing returned
      intro n member
      rcases named.names n member with old | new
      · exact unnamed n old
      · rw [new]
        rintro rfl
        exact other name rfl

theorem unnamed_run (more : List Event) (other : ∀ name, .nameHandle handle name ∉ more)
    (last : World) (sound : Sound world) (unnamed : Unnamed world handle)
    (ran : machine.runFrom world more = some last) : Sound last ∧ Unnamed last handle := by
  have kept : ∀ state event after, Sound state ∧ Unnamed state handle →
      (∀ name, event ≠ .nameHandle handle name) → machine.step state event = some after →
      Sound after ∧ Unnamed after handle := by
    intro state event after ⟨soundBefore, before⟩ guarded stepped
    exact ⟨sound_step soundBefore stepped, unnamed_step soundBefore before guarded stepped⟩
  apply machine.runFrom_invariant_of_guarded kept more world last ⟨sound, unnamed⟩
  · apply machine.guarded_of_forall
    rintro event member name rfl
    exact other name member
  · exact ran

/-- A handle that no name is bound to is found under no name. -/
theorem Unnamed.findName_ne (unnamed : Unnamed world handle) (sound : Sound world)
    (nonzero : handle ≠ 0) (name : List UInt8) : world.manager.findName name ≠ handle := by
  rw [Names.findName_eq sound.increasing]
  cases bound : Names.bindings world.manager.nameArray name with
  | none => exact fun same => nonzero same.symm
  | some other =>
      rintro rfl
      exact unnamed _ ((Names.bindings_eq_some_iff sound.increasing).mp bound) rfl

/-- The step of `retire` is that of the manager. -/
theorem unnamed_retire_iff (world : World) (handle : UInt32) :
    (∀ next, step world (.retire handle) = some next → Unnamed next handle) ↔
      Held world handle ∨ Unnamed world handle := by
  have stepped : ∀ next, step world (.retire handle) = some next →
      next.manager = (retire world.alive world.handle world.manager handle).2 := by
    intro next stepped
    cases Option.some.inj stepped
    rfl
  rcases SlotTable.retire_cases world.alive world.handle world.manager handle with
    ⟨call, locked, own, retired⟩ | ⟨missed, retired⟩
  · refine ⟨fun _ => Or.inl ⟨call, locked, own⟩, fun _ next isNext n member => ?_⟩
    rw [stepped next isNext, retired] at member
    exact of_decide_eq_true (List.mem_filter.mp member).2
  · constructor
    · intro cleared
      right
      intro n member
      refine cleared _ rfl n ?_
      rw [stepped _ rfl, retired]
      exact member
    · rintro (⟨call, locked, own⟩ | unnamed) next isNext n member
      · exact absurd own (missed call locked)
      · rw [stepped next isNext, retired] at member
        exact unnamed n member

/-- There is always a name that is bound to nothing. -/
theorem exists_unbound (names : List HandleName) : ∃ name, Names.bindings names name = none := by
  have bounded : ∃ bound, ∀ n ∈ names, n.name.length ≤ bound := by
    induction names with
    | nil => exact ⟨0, fun n member => by cases member⟩
    | cons first names ih =>
        obtain ⟨bound, below⟩ := ih
        refine ⟨max first.name.length bound, fun n member => ?_⟩
        rcases List.mem_cons.mp member with rfl | later
        · exact Nat.le_max_left _ _
        · exact Nat.le_trans (below n later) (Nat.le_max_right _ _)
  obtain ⟨bound, below⟩ := bounded
  refine ⟨List.replicate (bound + 1) 97, ?_⟩
  rw [Names.bindings_eq_none_iff]
  intro n member same
  have := below n member
  rw [same, List.length_replicate] at this
  omega

/-- **`retire` leaves no name behind** if and only if it finds the object of the handle alive, or
no name is bound to the handle; and the handle is not the 0 that `findName` returns for nothing. -/
theorem forgets_iff (events : List Event) (world : World) (ran : machine.run events = some world)
    (handle : UInt32) :
    Forgets world handle ↔ handle ≠ 0 ∧ (Held world handle ∨ Unnamed world handle) := by
  have sound := sound_run events world ran
  constructor
  · intro forgets
    refine ⟨?_, (unnamed_retire_iff world handle).mp forgets.cleared⟩
    rintro rfl
    obtain ⟨next, stepped⟩ : ∃ next, step world (.retire 0) = some next := ⟨_, rfl⟩
    have after := sound_step sound stepped
    obtain ⟨name, unbound⟩ := exists_unbound next.manager.nameArray
    apply forgets.forgotten next stepped [] next rfl (fun _ member => by cases member) name
    rw [Names.findName_eq after.increasing, unbound]
    rfl
  · rintro ⟨nonzero, held⟩
    have cleared := (unnamed_retire_iff world handle).mpr held
    refine ⟨cleared, ?_⟩
    intro next stepped more last later other name
    obtain ⟨soundLast, unnamed⟩ :=
      unnamed_run more other last (sound_step sound stepped) (cleared next stepped) later
    exact unnamed.findName_ne soundLast nonzero name

/-- An object that is alive is forgotten with its name. -/
theorem forgets_iff_alive : ∃ world,
    machine.run [.construct none, .checkIn 0, .nameHandle 1 [97]] = some world ∧
      Forgets world 1 := by
  have observed : (machine.run [.construct none, .checkIn 0, .nameHandle 1 [97]]).map
      (fun world => (lockSlot world.alive world.manager.slot
        (HandleManager.hash 1 world.manager.slot_size), world.handle 0)) = some (some 0, 1) := by
    decide +kernel
  obtain ⟨world, ran, seen⟩ := Option.map_eq_some_iff.mp observed
  obtain ⟨locked, own⟩ := Prod.mk.inj seen
  refine ⟨world, ran, (forgets_iff _ world ran 1).mpr ⟨by decide, ?_⟩⟩
  exact Or.inl ⟨0, locked, own⟩

/-- The object dies before its handle is retired: the name is still found. -/
theorem not_forgets_died : ∃ world,
    machine.run [.construct none, .checkIn 0, .nameHandle 1 [97], .die 0] = some world ∧
      Issued world 1 ∧ ¬ Forgets world 1 := by
  have observed : (machine.run [.construct none, .checkIn 0, .nameHandle 1 [97], .die 0]).map
      (fun world => (world.calls, world.issued 0,
        (step world (.retire 1)).map fun next => next.manager.findName [97])) =
      some (1, 1, some 1) := by decide +kernel
  obtain ⟨world, ran, seen⟩ := Option.map_eq_some_iff.mp observed
  obtain ⟨calls, issued, found⟩ : world.calls = 1 ∧ world.issued 0 = 1 ∧
      (step world (.retire 1)).map (fun next => next.manager.findName [97]) = some 1 := by
    simpa only [Prod.mk.injEq] using seen
  obtain ⟨next, stepped, isFound⟩ := Option.map_eq_some_iff.mp found
  refine ⟨world, ran, ⟨0, by omega, issued⟩, fun forgets => ?_⟩
  exact forgets.forgotten next stepped [] next rfl (fun _ member => by cases member) [97] isFound

end Manager

end EasyLua
