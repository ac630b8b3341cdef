import EasyLua.Registry.Manager

/-!
# Using the handles of the handle manager

`checkIn` stores an object under a number of its own counter, and `grab`, `retire` and the doubling
look it up under what its `handle()` returns. `cServiceInfo` and `cVmContext` take that from
another counter when they are constructed.
-/

namespace EasyLua

namespace Manager

open HandleManager Placement

/-- A handle finds the object for which it was returned, while that lives and was not retired. -/
def Usable (world : World) : Prop :=
  ∀ call < world.calls, world.alive call = true → world.retired call = false →
    (∃ found, grab world.alive world.handle world.manager (world.issued call) = some found ∧
      world.object found = world.object call) ∧
    (retire world.alive world.handle world.manager (world.issued call)).1 = true

/-- An object that has a handle is checked in when that is the next one. -/
def Matches (world : World) (event : Event) : Prop :=
  ∀ obj own, event = .checkIn obj → world.own obj = some own →
    NextFree world.alive world.handle world.manager own

/-- Objects are registered under their own handles, and in the slots of them. -/
structure Agreed (world : World) : Prop where
  handle : ∀ call < world.calls, world.handle call = world.issued call
  slot : ∀ call < world.calls, world.alive call = true → world.retired call = false →
    world.manager.slot (HandleManager.hash (world.issued call) world.manager.slot_size) = some call

variable {world next : World}

theorem Agreed.usable (agreed : Agreed world) : Usable world := by
  intro call below living kept
  have locked := SlotTable.lockSlot_eq_some.mpr ⟨agreed.slot call below living kept, living⟩
  have own := agreed.handle call below
  refine ⟨⟨call, SlotTable.grab_eq_some.mpr ⟨locked, own⟩, rfl⟩, ?_⟩
  rw [retire_iff]
  exact ⟨call, locked, own⟩

theorem Agreed.checkIn (agreed : Agreed world) (sound : Sound world) {obj : Nat} {number : UInt32}
    (checked : CheckedIn world obj number next)
    (matched : ∀ own, world.own obj = some own → own = number) : Agreed next := by
  have issuedSelf : next.issued world.calls = number := by
    rw [checked.issued, Function.update_self]
  have issuedOld : ∀ call < world.calls, next.issued call = world.issued call := by
    intro call before
    rw [checked.issued, Function.update_of_ne (Nat.ne_of_lt before)]
  constructor
  · intro call below
    rw [checked.calls] at below
    rcases Nat.lt_succ_iff_lt_or_eq.mp below with before | rfl
    · rw [checked.handle_eq sound before, issuedOld call before]
      exact agreed.handle call before
    · rw [checked.handle_self, issuedSelf]
      cases own : world.own obj with
      | none => rfl
      | some handle => exact matched handle own
  · intro call below living kept
    rw [checked.calls] at below
    rcases Nat.lt_succ_iff_lt_or_eq.mp below with before | rfl
    · rw [checked.alive_eq before] at living
      rw [checked.retired, Function.update_of_ne (Nat.ne_of_lt before)] at kept
      rw [issuedOld call before]
      have stored := agreed.slot call before living kept
      have locked := SlotTable.lockSlot_eq_some.mpr ⟨stored, living⟩
      cases checked.stored with
      | inTable free size slot =>
          rw [size, slot, Function.update_of_ne]
          · exact stored
          · intro same
            rw [← same] at free
            exact free ⟨call, locked⟩
      | inDouble new_slot full rehashed free size slot =>
          -- the doubling moves the object to the slot of its `handle()`
          have moved : new_slot (HandleManager.hash (world.issued call)
              (world.manager.slot_size * 2)) = some call := by
            obtain ⟨exponent, small, powerOfTwo⟩ := sound.size
            refine (rehashed.slots _ call).mpr ⟨_, hash_lt powerOfTwo (by omega) _, stored, ?_⟩
            rw [agreed.handle call before]
          rw [size, slot, Function.update_of_ne]
          · exact moved
          · intro same
            rw [← same] at free
            exact free ⟨call, SlotTable.lockSlot_eq_some.mpr ⟨moved, living⟩⟩
    · rw [issuedSelf]
      cases checked.stored with
      | inTable _ size slot => rw [size, slot, Function.update_self]
      | inDouble _ _ _ _ size slot => rw [size, slot, Function.update_self]

/-- A retirement takes the objects of its handle only. -/
theorem Agreed.retire (agreed : Agreed world) {handle : UInt32}
    (stepped : step world (.retire handle) = some next) : Agreed next := by
  cases Option.some.inj stepped
  have less := retire_less world.alive world.handle world.manager handle
  refine ⟨agreed.handle, fun call below living kept => ?_⟩
  obtain ⟨before, different⟩ := Bool.or_eq_false_iff.mp kept
  have other : world.handle call ≠ handle := by
    rw [agreed.handle call below]
    exact of_decide_eq_false different
  dsimp only
  rw [less.slot_size]
  exact retire_kept world.alive (agreed.slot call below living before) other

theorem agreed_step (sound : Sound world) (agreed : Agreed world) {event : Event}
    (matched : Matches world event) (stepped : step world event = some next) : Agreed next := by
  cases event with
  | construct own =>
      cases Option.some.inj stepped
      constructor
      · intro call below
        have old := sound.object call below
        dsimp only [World.handle]
        rw [Function.update_of_ne (Nat.ne_of_lt old)]
        exact agreed.handle call below
      · intro call below living kept
        have old := sound.object call below
        dsimp only [World.alive] at living
        rw [Function.update_of_ne (Nat.ne_of_lt old)] at living
        exact agreed.slot call below living kept
  | die obj =>
      obtain ⟨_, rfl⟩ := step_die stepped
      refine ⟨agreed.handle, fun call below living kept => ?_⟩
      dsimp only [World.alive] at living
      by_cases same : world.object call = obj
      · rw [same, Function.update_self] at living
        cases living
      · rw [Function.update_of_ne same] at living
        exact agreed.slot call below living kept
  | checkIn obj =>
      obtain ⟨number, checked⟩ := sound.checkedIn stepped
      obtain ⟨exponent, small, size⟩ := sound.size
      refine agreed.checkIn sound checked fun own isOwn => ?_
      exact (matched obj own rfl isOwn).unique size (by omega) checked.isNext
  | retire handle => exact agreed.retire stepped
  | retireAll =>
      obtain ⟨manager, returned, rfl⟩ := step_retireAll stepped
      refine ⟨agreed.handle, fun call below living kept => ?_⟩
      obtain ⟨before, skipped⟩ := Bool.or_eq_false_iff.mp kept
      have zero : world.handle call = 0 := not_not.mp (of_decide_eq_false skipped)
      dsimp only
      rw [(retireAll_spec _ _ returned).1.slot_size]
      exact retireAll_kept _ zero _ returned (agreed.slot call below living before)
  | grab handle =>
      cases Option.some.inj stepped
      exact agreed
  | findName name =>
      cases Option.some.inj stepped
      exact agreed
  | nameHandle handle name =>
      obtain ⟨_, manager, returned, rfl⟩ := step_nameHandle stepped
      have named := Names.nameHandle_named sound.increasing returned
      refine ⟨agreed.handle, fun call below living kept => ?_⟩
      dsimp only
      rw [named.slot_size, named.slot]
      exact agreed.slot call below living kept

/-- A handle that is not that of its object finds nothing. -/
theorem matches_of_usable (sound : Sound world) {event : Event}
    (stepped : step world event = some next) (usable : Usable next) : Matches world event := by
  rintro obj own rfl isOwn
  obtain ⟨number, checked⟩ := sound.checkedIn stepped
  have issued : next.issued world.calls = number := by
    rw [checked.issued, Function.update_self]
  have retired : next.retired world.calls = false := by
    rw [checked.retired, Function.update_self]
  have below : world.calls < next.calls := by
    rw [checked.calls]
    exact Nat.lt_succ_self _
  obtain ⟨⟨found, grabbed, _⟩, _⟩ := usable world.calls below checked.alive_self retired
  rw [issued] at grabbed
  obtain ⟨locked, handle⟩ := SlotTable.grab_eq_some.mp grabbed
  have stored : next.manager.slot (HandleManager.hash number next.manager.slot_size) =
      some world.calls := by
    cases checked.stored with
    | inTable _ size slot => rw [size, slot, Function.update_self]
    | inDouble _ _ _ _ size slot => rw [size, slot, Function.update_self]
  cases Option.some.inj ((SlotTable.lockSlot_eq_some.mp locked).1.symm.trans stored)
  rw [checked.handle_self, isOwn] at handle
  obtain rfl : own = number := handle
  exact checked.isNext

/-- What holds in a history in which each object is checked in when its own handle is the next
one. -/
theorem agreed_run (events : List Event) (world : World) (ran : machine.run events = some world)
    (guarded : machine.Guarded Matches machine.init events) : Agreed world ∧ Placed world := by
  have kept : ∀ state event after, (Sound state ∧ Agreed state ∧ Placed state) →
      Matches state event → machine.step state event = some after →
      Sound after ∧ Agreed after ∧ Placed after := by
    intro state event after ⟨sound, agreed, placed⟩ matched stepped
    exact ⟨sound_step sound stepped, agreed_step sound agreed matched stepped,
      placed_step sound placed stepped⟩
  have start : Sound machine.init ∧ Agreed machine.init ∧ Placed machine.init := by
    refine ⟨sound_init, ⟨fun call below => ?_, fun call below => ?_⟩, fun _ _ _ found => ?_⟩
    · exact absurd below (Nat.not_lt_zero call)
    · exact absurd below (Nat.not_lt_zero call)
    · cases found
  exact (machine.runFrom_invariant_of_guarded kept events machine.init world start guarded ran).2

/-- **A handle that `checkIn` has returned can be used** in every state of a history if and only if
each object is checked in when its own handle is the next one. -/
theorem usable_iff (events : List Event) (world : World) (ran : machine.run events = some world) :
    (∀ first, first <+: events → ∀ reached, machine.run first = some reached → Usable reached) ↔
      machine.Guarded Matches machine.init events := by
  constructor
  · intro usable
    rw [machine.guarded_iff]
    rintro first event second rfl reached before
    obtain ⟨next, later⟩ := machine.run_of_initial
      (show first ++ [event] <+: first ++ event :: second from ⟨second, by simp⟩) ran
    have isUsable := usable (first ++ [event]) ⟨second, by simp⟩ next later
    rw [machine.run_concat, show machine.run first = some reached from before] at later
    exact matches_of_usable (sound_run first reached before) later isUsable
  · intro guarded first initial reached before
    obtain ⟨agreed, _⟩ := agreed_run first reached before
      (Machine.Guarded.initial machine initial guarded)
    exact agreed.usable

/-! ## The assertion -/

/-- The doubling finds each object a slot of its own. -/
theorem Agreed.exists_checkIn (agreed : Agreed world) (placed : Placed world)
    (sound : Sound world) {obj : Nat} (lives : world.living obj = true)
    (small : Full world.alive world.manager → world.manager.slot_size < 2 ^ 30) :
    ∃ next, step world (.checkIn obj) = some next := by
  by_cases full : Full world.alive world.manager
  · obtain ⟨exponent, few, size⟩ := sound.size
    have fullCall := (sound.full_call obj).mpr full
    have inPlace : ∀ i < world.manager.slot_size, ∀ call, world.manager.slot i = some call →
        HandleManager.hash ((world.call obj).handle call) world.manager.slot_size = i := by
      intro i inside call found
      have before := sound.known i call found
      have own := agreed.handle call before
      rw [handle_call before, own]
      exact placed i inside call found own
    obtain ⟨number, new_slot, returned⟩ := checkIn_full size few fullCall inPlace world.calls
    have fits : world.manager.slot_size * 2 < 2 ^ 31 := by
      have := small full
      omega
    unfold step
    dsimp only
    rw [if_pos lives, returned]
    exact ⟨_, if_pos fits⟩
  · obtain ⟨next, stepped, _⟩ := sound.exists_checkIn lives full
    exact ⟨next, stepped⟩

/-- **`checkIn` returns for every object** when each was checked in with the next handle: its
assertion does not fail while a larger table fits `slot_size`. -/
theorem checkIn_returns (events : List Event) (world : World)
    (ran : machine.run events = some world)
    (guarded : machine.Guarded Matches machine.init events) {obj : Nat}
    (lives : world.living obj = true)
    (small : Full world.alive world.manager → world.manager.slot_size < 2 ^ 30) :
    ∃ next, step world (.checkIn obj) = some next := by
  obtain ⟨agreed, placed⟩ := agreed_run events world ran guarded
  exact agreed.exists_checkIn placed (sound_run events world ran) lives small

/-! ## Reading the condition off the end of a history -/

/-- An object was checked in under a handle that is not its own. -/
def Unlike (world : World) : Prop :=
  ∃ call < world.calls, world.handle call ≠ world.issued call

theorem unlike_of_not_matches (sound : Sound world) {event : Event}
    (unmatched : ¬ Matches world event) (stepped : step world event = some next) :
    Unlike next := by
  unfold Matches at unmatched
  push Not at unmatched
  obtain ⟨obj, own, rfl, isOwn, notNext⟩ := unmatched
  obtain ⟨number, checked⟩ := sound.checkedIn stepped
  refine ⟨world.calls, ?_, fun same => ?_⟩
  · rw [checked.calls]
    exact Nat.lt_succ_self _
  · rw [checked.handle_self, isOwn, checked.issued, Function.update_self] at same
    obtain rfl : own = number := same
    exact notNext checked.isNext

theorem Unlike.step (unlike : Unlike world) (sound : Sound world) {event : Event}
    (stepped : Manager.step world event = some next) : Unlike next := by
  obtain ⟨call, below, differs⟩ := unlike
  rcases checkIn_or_other event with ⟨obj, rfl⟩ | other
  · obtain ⟨number, checked⟩ := sound.checkedIn stepped
    refine ⟨call, ?_, ?_⟩
    · rw [checked.calls]
      exact Nat.lt_succ_of_lt below
    · rw [checked.handle_eq sound below, checked.issued,
        Function.update_of_ne (Nat.ne_of_lt below)]
      exact differs
  · have frame := step_frame sound other stepped
    refine ⟨call, ?_, ?_⟩
    · rw [frame.calls]
      exact below
    · rw [frame.handle call below, frame.issued]
      exact differs

/-- Each object was checked in with the next handle when all handles agree in the end. -/
theorem guarded_of_handles {events : List Event} (ran : machine.run events = some world)
    (same : ∀ call < world.calls, world.handle call = world.issued call) :
    machine.Guarded Matches machine.init events := by
  have never : ¬ Unlike world := fun ⟨call, below, differs⟩ => differs (same call below)
  exact machine.run_guarded_of_not sound_init
    (fun _ _ _ sound stepped => sound_step sound stepped)
    (fun _ _ _ sound unmatched stepped => unlike_of_not_matches sound unmatched stepped)
    (fun _ _ _ sound unlike stepped => unlike.step sound stepped) ran never

/-- Six objects with the handles 1, 2, 3, 4, 7 and 8; the third is retired before the fifth is
checked in, and the sixth finds a full table. -/
def doubling : List Event :=
  [.construct (some 1), .construct (some 2), .construct (some 3), .construct (some 4),
    .construct (some 7), .construct (some 8), .checkIn 0, .checkIn 1, .checkIn 2, .checkIn 3,
    .retire 3, .checkIn 4, .checkIn 5]

/-- All of them can be used. -/
theorem usable_iff_doubling : ∃ world, machine.run doubling = some world ∧
    world.manager.slot_size = 8 ∧ world.calls = 6 ∧ world.retired 2 = true ∧
    ∀ first, first <+: doubling → ∀ reached, machine.run first = some reached →
      Usable reached := by
  have observed : (machine.run doubling).map (fun world => (world.manager.slot_size, world.calls,
      world.retired 2, (List.range 6).map world.handle, (List.range 6).map world.issued)) =
      some (8, 6, true, [1, 2, 3, 4, 7, 8], [1, 2, 3, 4, 7, 8]) := by decide +kernel
  obtain ⟨world, ran, seen⟩ := Option.map_eq_some_iff.mp observed
  obtain ⟨size, calls, retired, handles, issued⟩ : world.manager.slot_size = 8 ∧
      world.calls = 6 ∧ world.retired 2 = true ∧
      (List.range 6).map world.handle = [1, 2, 3, 4, 7, 8] ∧
      (List.range 6).map world.issued = [1, 2, 3, 4, 7, 8] := by
    simpa only [Prod.mk.injEq] using seen
  refine ⟨world, ran, size, calls, retired, (usable_iff _ world ran).mpr ?_⟩
  apply guarded_of_handles ran
  intro call below
  rw [calls] at below
  exact List.map_inj_left.mp (handles.trans issued.symm) call (List.mem_range.mpr below)

/-- Two objects are constructed with the handles 1 and 2, and the second is checked in first. -/
theorem not_usable_reordered : ∃ world,
    machine.run [.construct (some 1), .construct (some 2), .checkIn 1] = some world ∧
      ¬ Usable world := by
  have observed : (machine.run [.construct (some 1), .construct (some 2), .checkIn 1]).map
      (fun world => (world.calls, world.alive 0, world.retired 0,
        (retire world.alive world.handle world.manager (world.issued 0)).1)) =
      some (1, true, false, false) := by decide +kernel
  obtain ⟨world, ran, seen⟩ := Option.map_eq_some_iff.mp observed
  obtain ⟨calls, living, kept, failed⟩ : world.calls = 1 ∧ world.alive 0 = true ∧
      world.retired 0 = false ∧
      (retire world.alive world.handle world.manager (world.issued 0)).1 = false := by
    simpa only [Prod.mk.injEq] using seen
  refine ⟨world, ran, fun usable => ?_⟩
  obtain ⟨_, retired⟩ := usable 0 (by omega) living kept
  rw [failed] at retired
  cases retired

end Manager

end EasyLua
