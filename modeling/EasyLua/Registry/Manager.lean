import EasyLua.Registry.Names
import EasyLua.Registry.Placement

/-!
# Histories of the handle manager

Objects are constructed, checked in, any number of times, and die whenever no operation runs;
`retire`, `retireAll`, `grab`, `nameHandle` and `findName` are called with anything. An object is
constructed with what its `handle()` returns, as `cServiceInfo` and `cVmContext` are, or it
returns what `checkIn` has first returned for it.
-/

namespace EasyLua

namespace Manager

open HandleManager

/-- The manager, in which the `weak_ptr`s are told apart by the call of `checkIn` that stored
them; the objects, which of them live and what their `handle()` returns; and the calls of
`checkIn`: the object, the handle that was returned, and whether it has been retired since. -/
structure World where
  manager : HandleManager Nat
  objects : Nat
  living : Nat → Bool
  own : Nat → Option UInt32
  calls : Nat
  object : Nat → Nat
  issued : Nat → UInt32
  retired : Nat → Bool

/-- One operation, or the birth or death of an object. -/
inductive Event
  | construct (own : Option UInt32)
  | die (obj : Nat)
  | checkIn (obj : Nat)
  | retire (handle : UInt32)
  | retireAll
  | grab (handle : UInt32)
  | findName (name : List UInt8)
  | nameHandle (handle : UInt32) (name : List UInt8)

namespace World

variable (world : World)

/-- Whether the `weak_ptr` has not expired. -/
def alive (call : Nat) : Bool := world.living (world.object call)

/-- `handle()` of the object. -/
def handle (call : Nat) : UInt32 := (world.own (world.object call)).getD 0

/-- The next call of `checkIn`, before it has returned. -/
def call (obj : Nat) : World :=
  { world with
    object := Function.update world.object world.calls obj
    retired := Function.update world.retired world.calls false }

/-- `checkIn` has returned a handle. -/
def issue (obj : Nat) (handle : UInt32) (manager : HandleManager Nat) : World :=
  { world with
    manager
    own := Function.update world.own obj (some ((world.own obj).getD handle))
    calls := world.calls + 1
    issued := Function.update world.issued world.calls handle }

end World

/-- One step; no result when the operation does not return, when `slot_size` overflows, or when
the object does not live. -/
def step (world : World) : Event → Option World
  | .construct own =>
      some { world with
        objects := world.objects + 1
        living := Function.update world.living world.objects true
        own := Function.update world.own world.objects own }
  | .die obj =>
      if world.living obj then
        some { world with living := Function.update world.living obj false }
      else none
  | .checkIn obj =>
      if world.living obj then
        match checkIn (world.call obj).alive (world.call obj).handle world.calls 2
            world.manager with
        | .ok (handle, manager) =>
            if manager.slot_size < 2 ^ 31 then some ((world.call obj).issue obj handle manager)
            else none
        | .error _ => none
      else none
  | .retire handle =>
      some { world with
        manager := (retire world.alive world.handle world.manager handle).2
        retired := fun call => world.retired call || world.issued call = handle }
  | .retireAll =>
      match retireAll world.alive world.handle (world.manager.slot_size + 1) world.manager with
      | .ok manager =>
          -- an object whose `handle()` is 0 is skipped
          some { world with
            manager
            retired := fun call => world.retired call || world.handle call ≠ 0 }
      | .error _ => none
  | .grab _ => some world
  | .findName _ => some world
  | .nameHandle handle name =>
      match nameHandle world.manager handle name with
      | .ok (_, manager) => some { world with manager }
      | .error _ => none

/-- The histories of a handle manager. -/
def machine : Machine World Event where
  init := {
    manager := .init
    objects := 0
    living := fun _ => false
    own := fun _ => none
    calls := 0
    object := fun _ => 0
    issued := fun _ => 0
    retired := fun _ => false }
  step := step

/-- The size of the table is a power of two, the names are in strict order, and the calls of
which the slots know are in the past. -/
structure Sound (world : World) : Prop where
  size : ∃ exponent ≤ 30, world.manager.slot_size = 2 ^ exponent
  increasing : Names.Increasing world.manager.nameArray
  living : ∀ obj, world.living obj = true → obj < world.objects
  object : ∀ call < world.calls, world.object call < world.objects
  known : ∀ i call, world.manager.slot i = some call → call < world.calls
  /-- Every object that was checked in has a handle from then on. -/
  owned : ∀ call < world.calls, ∃ handle, world.own (world.object call) = some handle

variable {world next : World}

/-! ## What each step does -/

theorem step_die {obj : Nat} (stepped : step world (.die obj) = some next) :
    world.living obj = true ∧
      next = { world with living := Function.update world.living obj false } := by
  obtain ⟨living, stepped⟩ := Option.ite_none_right_eq_some.mp stepped
  exact ⟨living, (Option.some.inj stepped).symm⟩

theorem step_checkIn {obj : Nat} (stepped : step world (.checkIn obj) = some next) :
    world.living obj = true ∧ ∃ handle manager,
      checkIn (world.call obj).alive (world.call obj).handle world.calls 2 world.manager =
        .ok (handle, manager) ∧
      manager.slot_size < 2 ^ 31 ∧ next = (world.call obj).issue obj handle manager := by
  obtain ⟨living, stepped⟩ := Option.ite_none_right_eq_some.mp stepped
  refine ⟨living, ?_⟩
  split at stepped
  · rename_i handle manager returned
    obtain ⟨small, stepped⟩ := Option.ite_none_right_eq_some.mp stepped
    exact ⟨handle, manager, returned, small, (Option.some.inj stepped).symm⟩
  · cases stepped

theorem step_retireAll (stepped : step world .retireAll = some next) :
    ∃ manager, retireAll world.alive world.handle (world.manager.slot_size + 1) world.manager =
      .ok manager ∧ next = { world with
        manager
        retired := fun call => world.retired call || world.handle call ≠ 0 } := by
  unfold step at stepped
  dsimp only at stepped
  split at stepped
  · rename_i manager returned
    exact ⟨manager, returned, (Option.some.inj stepped).symm⟩
  · cases stepped

theorem step_nameHandle {handle : UInt32} {name : List UInt8}
    (stepped : step world (.nameHandle handle name) = some next) :
    ∃ result manager, nameHandle world.manager handle name = .ok (result, manager) ∧
      next = { world with manager } := by
  unfold step at stepped
  dsimp only at stepped
  split at stepped
  · rename_i result manager returned
    exact ⟨result, manager, returned, (Option.some.inj stepped).symm⟩
  · cases stepped

/-! ## `checkIn` -/

section CheckIn

open Placement

variable {obj : Nat}

theorem alive_call {call : Nat} (before : call < world.calls) :
    (world.call obj).alive call = world.alive call := by
  dsimp only [World.alive, World.call]
  rw [Function.update_of_ne (Nat.ne_of_lt before)]

theorem handle_call {call : Nat} (before : call < world.calls) :
    (world.call obj).handle call = world.handle call := by
  dsimp only [World.handle, World.call]
  rw [Function.update_of_ne (Nat.ne_of_lt before)]

/-- The new `weak_ptr` is in no slot yet. -/
theorem Sound.lockSlot_call (sound : Sound world) (obj : Nat) (i call : Nat) :
    lockSlot (world.call obj).alive world.manager.slot i = some call ↔
      lockSlot world.alive world.manager.slot i = some call := by
  rw [SlotTable.lockSlot_eq_some, SlotTable.lockSlot_eq_some]
  exact and_congr_right fun found => by rw [alive_call (sound.known i call found)]

theorem Sound.taken_call (sound : Sound world) (obj : Nat) (i : Nat) :
    Taken (world.call obj).alive world.manager.slot i ↔ Taken world.alive world.manager.slot i :=
  exists_congr fun call => sound.lockSlot_call obj i call

theorem Sound.moved_call (sound : Sound world) (obj : Nat) (j : Nat) :
    Moved (world.call obj).alive (world.call obj).handle world.manager j ↔
      Moved world.alive world.handle world.manager j := by
  unfold Moved
  refine exists_congr fun i => and_congr_right fun _ => exists_congr fun call => ?_
  rw [sound.lockSlot_call obj i call]
  refine and_congr_right fun locked => ?_
  rw [handle_call (sound.known i call (SlotTable.lockSlot_eq_some.mp locked).1)]

theorem Sound.full_call (sound : Sound world) (obj : Nat) :
    Full (world.call obj).alive world.manager ↔ Full world.alive world.manager :=
  forall₂_congr fun i _ => sound.taken_call obj i

/-- How `checkIn` changes the slots. -/
inductive Stored (world next : World) (number : UInt32) : Prop
  | inTable (free : ¬ Taken world.alive world.manager.slot
        (HandleManager.hash number world.manager.slot_size))
      (size : next.manager.slot_size = world.manager.slot_size)
      (slot : next.manager.slot = Function.update world.manager.slot
        (HandleManager.hash number world.manager.slot_size) (some world.calls))
  | inDouble (new_slot : Nat → Option Nat) (full : Full world.alive world.manager)
      (rehashed : Rehashed world.handle world.manager world.manager.slot_size new_slot)
      (free : ¬ Taken world.alive new_slot
        (HandleManager.hash number (world.manager.slot_size * 2)))
      (size : next.manager.slot_size = world.manager.slot_size * 2)
      (slot : next.manager.slot = Function.update new_slot
        (HandleManager.hash number (world.manager.slot_size * 2)) (some world.calls))

/-- What a step of `checkIn` does. -/
structure CheckedIn (world : World) (obj : Nat) (number : UInt32) (next : World) : Prop where
  lives : world.living obj = true
  isNext : NextFree world.alive world.handle world.manager number
  stored : Stored world next number
  fits : next.manager.slot_size < 2 ^ 31
  handle_index : next.manager.handle_index = number + 1
  nameArray : next.manager.nameArray = world.manager.nameArray
  objects : next.objects = world.objects
  living : next.living = world.living
  own : next.own = Function.update world.own obj (some ((world.own obj).getD number))
  calls : next.calls = world.calls + 1
  object : next.object = Function.update world.object world.calls obj
  issued : next.issued = Function.update world.issued world.calls number
  retired : next.retired = Function.update world.retired world.calls false

theorem Sound.checkedIn (sound : Sound world) (stepped : step world (.checkIn obj) = some next) :
    ∃ number, CheckedIn world obj number next := by
  obtain ⟨lives, number, manager, returned, fits, rfl⟩ := step_checkIn stepped
  obtain ⟨exponent, small, size⟩ := sound.size
  refine ⟨number, lives, ?_, ?_, fits, ?_, ?_, rfl, rfl, rfl, rfl, rfl, rfl, rfl⟩
  · rcases checkIn_nextFree size small returned with isFirst | ⟨full, isFirst⟩
    · exact Or.inl (FirstFree.congr (sound.taken_call obj) isFirst)
    · exact Or.inr ⟨(sound.full_call obj).mp full, FirstFree.congr (sound.moved_call obj) isFirst⟩
  · rcases checkIn_spec size small returned with
      ⟨⟨_, _, _, free, _⟩, rfl⟩ | ⟨full, ⟨_, _, _, free, _⟩, new_slot, rehashed, rfl⟩
    · refine .inTable ?_ rfl rfl
      rw [← sound.taken_call obj]
      exact free
    · have again : Rehashed world.handle world.manager world.manager.slot_size new_slot :=
        Rehashed.congr (fun i call found => (handle_call (sound.known i call found)).symm) rehashed
      refine .inDouble new_slot ((sound.full_call obj).mp full) again ?_ rfl rfl
      rw [again.taken_iff, ← sound.moved_call obj]
      exact free
  · rcases checkIn_spec size small returned with ⟨_, rfl⟩ | ⟨_, _, _, _, rfl⟩
    · rfl
    · rfl
  · rcases checkIn_spec size small returned with ⟨_, rfl⟩ | ⟨_, _, _, _, rfl⟩
    · rfl
    · rfl

/-- `checkIn` returns while a slot is free. -/
theorem Sound.exists_checkIn (sound : Sound world) (lives : world.living obj = true)
    (free : ¬ Full world.alive world.manager) :
    ∃ next, step world (.checkIn obj) = some next ∧
      next.manager.slot_size = world.manager.slot_size := by
  obtain ⟨exponent, small, size⟩ := sound.size
  rcases probe_spec (world.call obj).alive world.calls size (by omega) with
    ⟨_, full⟩ | ⟨number, _, probed⟩
  · exact absurd ((sound.full_call obj).mp full) free
  · have returned : checkIn (world.call obj).alive (world.call obj).handle world.calls 2
        world.manager = .ok (number, store world.manager world.calls number) :=
      SlotTable.checkIn_of_probe probed 1
    have fits : world.manager.slot_size < 2 ^ 31 := by
      rw [size]
      exact Nat.pow_lt_pow_right (by decide) (Nat.lt_succ_of_le small)
    refine ⟨(world.call obj).issue obj number (store world.manager world.calls number), ?_, rfl⟩
    unfold step
    dsimp only
    rw [if_pos lives, returned]
    exact if_pos fits

/-- No call before this one hears of the handle of the object. -/
theorem CheckedIn.handle_eq {number : UInt32} (checked : CheckedIn world obj number next)
    (sound : Sound world) {call : Nat} (before : call < world.calls) :
    next.handle call = world.handle call := by
  dsimp only [World.handle]
  rw [checked.object, checked.own, Function.update_of_ne (Nat.ne_of_lt before)]
  by_cases same : world.object call = obj
  · obtain ⟨handle, isOwn⟩ := sound.owned call before
    rw [same, Function.update_self] at *
    rw [isOwn]
    rfl
  · rw [Function.update_of_ne same]

theorem CheckedIn.alive_eq {number : UInt32} (checked : CheckedIn world obj number next)
    {call : Nat} (before : call < world.calls) : next.alive call = world.alive call := by
  dsimp only [World.alive]
  rw [checked.object, checked.living, Function.update_of_ne (Nat.ne_of_lt before)]

theorem CheckedIn.handle_self {number : UInt32} (checked : CheckedIn world obj number next) :
    next.handle world.calls = (world.own obj).getD number := by
  dsimp only [World.handle]
  rw [checked.object, checked.own, Function.update_self, Function.update_self]
  rfl

theorem CheckedIn.alive_self {number : UInt32} (checked : CheckedIn world obj number next) :
    next.alive world.calls = true := by
  dsimp only [World.alive]
  rw [checked.object, checked.living, Function.update_self]
  exact checked.lives

end CheckIn

/-! ## Every step keeps the invariant -/

theorem sound_init : Sound machine.init where
  size := ⟨2, by decide, rfl⟩
  increasing := List.Pairwise.nil
  living := fun _ living => by cases living
  object := fun _ below => absurd below (Nat.not_lt_zero _)
  known := fun _ _ found => by cases found
  owned := fun _ below => absurd below (Nat.not_lt_zero _)

/-- What was stored is known afterwards. -/
theorem Stored.known {number : UInt32} (stored : Stored world next number)
    (known : ∀ i call, world.manager.slot i = some call → call < world.calls) {i call : Nat}
    (found : next.manager.slot i = some call) : call < world.calls + 1 := by
  cases stored with
  | inTable _ _ slot =>
      rw [slot] at found
      rcases PartialMap.bind_eq_some_iff.mp found with ⟨_, rfl⟩ | ⟨_, old⟩
      · exact Nat.lt_succ_self _
      · exact Nat.lt_succ_of_lt (known i call old)
  | inDouble new_slot _ rehashed _ _ slot =>
      rw [slot] at found
      rcases PartialMap.bind_eq_some_iff.mp found with ⟨_, rfl⟩ | ⟨_, old⟩
      · exact Nat.lt_succ_self _
      · obtain ⟨k, _, isEntry, _⟩ := (rehashed.slots i call).mp old
        exact Nat.lt_succ_of_lt (known k call isEntry)

theorem Sound.checkIn (sound : Sound world) {obj : Nat} {number : UInt32}
    (checked : CheckedIn world obj number next) : Sound next where
  size := by
    obtain ⟨exponent, small, size⟩ := sound.size
    have fits := checked.fits
    cases checked.stored with
    | inTable _ same _ => exact ⟨exponent, small, same.trans size⟩
    | inDouble _ _ _ _ twice _ =>
        rw [size, ← Nat.pow_succ] at twice
        rw [twice] at fits
        have := (Nat.pow_lt_pow_iff_right (show 1 < 2 by decide)).mp fits
        exact ⟨exponent + 1, by omega, twice⟩
  increasing := by
    rw [checked.nameArray]
    exact sound.increasing
  living := by
    rw [checked.living, checked.objects]
    exact sound.living
  object := by
    intro call below
    rw [checked.calls] at below
    rw [checked.object, checked.objects]
    rcases Nat.lt_succ_iff_lt_or_eq.mp below with old | rfl
    · rw [Function.update_of_ne (Nat.ne_of_lt old)]
      exact sound.object call old
    · rw [Function.update_self]
      exact sound.living obj checked.lives
  known := by
    intro i call found
    rw [checked.calls]
    exact checked.stored.known sound.known found
  owned := by
    intro call below
    rw [checked.calls] at below
    rw [checked.own, checked.object]
    rcases Nat.lt_succ_iff_lt_or_eq.mp below with old | rfl
    · rw [Function.update_of_ne (Nat.ne_of_lt old)]
      obtain ⟨handle, isOwn⟩ := sound.owned call old
      by_cases same : world.object call = obj
      · rw [same, Function.update_self]
        exact ⟨_, rfl⟩
      · rw [Function.update_of_ne same]
        exact ⟨handle, isOwn⟩
    · rw [Function.update_self, Function.update_self]
      exact ⟨_, rfl⟩

/-- Less of the manager is as sound. -/
theorem Sound.less (sound : Sound world) {manager : HandleManager Nat} {retired : Nat → Bool}
    (less : Placement.Less manager world.manager) : Sound { world with manager, retired } where
  size := by
    dsimp only
    rw [less.slot_size]
    exact sound.size
  increasing := sound.increasing.sublist less.names
  living := sound.living
  object := sound.object
  known := fun i call found => sound.known i call (less.slots i call found)
  owned := sound.owned

theorem sound_step (sound : Sound world) {event : Event} (stepped : step world event = some next) :
    Sound next := by
  cases event with
  | construct own =>
      cases Option.some.inj stepped
      refine ⟨sound.size, sound.increasing, ?_, ?_, sound.known, ?_⟩
      · intro obj living
        by_cases new : obj = world.objects
        · rw [new]
          exact Nat.lt_succ_self _
        · dsimp only at living
          rw [Function.update_of_ne new] at living
          exact Nat.lt_succ_of_lt (sound.living obj living)
      · exact fun call below => Nat.lt_succ_of_lt (sound.object call below)
      · intro call below
        dsimp only
        rw [Function.update_of_ne (Nat.ne_of_lt (sound.object call below))]
        exact sound.owned call below
  | die obj =>
      obtain ⟨_, rfl⟩ := step_die stepped
      refine ⟨sound.size, sound.increasing, ?_, sound.object, sound.known, sound.owned⟩
      intro other living
      by_cases same : other = obj
      · subst same
        dsimp only at living
        rw [Function.update_self] at living
        cases living
      · dsimp only at living
        rw [Function.update_of_ne same] at living
        exact sound.living other living
  | checkIn obj =>
      obtain ⟨number, checked⟩ := sound.checkedIn stepped
      exact sound.checkIn checked
  | retire handle =>
      cases Option.some.inj stepped
      exact sound.less (Placement.retire_less _ _ _ _)
  | retireAll =>
      obtain ⟨manager, returned, rfl⟩ := step_retireAll stepped
      exact sound.less (Placement.retireAll_spec _ _ returned).1
  | grab handle =>
      cases Option.some.inj stepped
      exact sound
  | findName name =>
      cases Option.some.inj stepped
      exact sound
  | nameHandle handle name =>
      obtain ⟨_, manager, returned, rfl⟩ := step_nameHandle stepped
      have named := Names.nameHandle_named sound.increasing returned
      refine ⟨?_, named.increasing, sound.living, sound.object, ?_, sound.owned⟩
      · dsimp only
        rw [named.slot_size]
        exact sound.size
      · dsimp only
        rw [named.slot]
        exact sound.known

theorem sound_run (events : List Event) (world : World) (ran : machine.run events = some world) :
    Sound world :=
  machine.run_invariant Sound sound_init (fun _ _ _ sound stepped => sound_step sound stepped)
    events world ran

/-- `retireAll` returns in every state. -/
theorem Sound.exists_retireAll (sound : Sound world) :
    ∃ next, step world .retireAll = some next := by
  obtain ⟨exponent, small, size⟩ := sound.size
  obtain ⟨manager, returned⟩ := Placement.retireAll_fuel world.alive world.handle
    (show exponent ≤ 31 by omega) (world.manager.slot_size + 1)
    world.manager size (Nat.lt_succ_of_le (Placement.occupied_le _))
  unfold step
  dsimp only
  rw [returned]
  exact ⟨_, rfl⟩

/-! ## Steps that register nothing -/

/-- What every step but that of `checkIn` leaves as it is. -/
structure Frame (world next : World) : Prop where
  slot_size : next.manager.slot_size = world.manager.slot_size
  slots : ∀ i call, next.manager.slot i = some call → world.manager.slot i = some call
  calls : next.calls = world.calls
  object : next.object = world.object
  issued : next.issued = world.issued
  handle : ∀ call < world.calls, next.handle call = world.handle call

theorem step_frame (sound : Sound world) {event : Event} (other : ∀ obj, event ≠ .checkIn obj)
    (stepped : step world event = some next) : Frame world next := by
  cases event with
  | construct own =>
      cases Option.some.inj stepped
      refine ⟨rfl, fun _ _ found => found, rfl, rfl, rfl, fun call below => ?_⟩
      dsimp only [World.handle]
      rw [Function.update_of_ne (Nat.ne_of_lt (sound.object call below))]
  | die obj =>
      obtain ⟨_, rfl⟩ := step_die stepped
      exact ⟨rfl, fun _ _ found => found, rfl, rfl, rfl, fun _ _ => rfl⟩
  | checkIn obj => exact absurd rfl (other obj)
  | retire handle =>
      cases Option.some.inj stepped
      have less := Placement.retire_less world.alive world.handle world.manager handle
      exact ⟨less.slot_size, less.slots, rfl, rfl, rfl, fun _ _ => rfl⟩
  | retireAll =>
      obtain ⟨manager, returned, rfl⟩ := step_retireAll stepped
      have less := (Placement.retireAll_spec _ _ returned).1
      exact ⟨less.slot_size, less.slots, rfl, rfl, rfl, fun _ _ => rfl⟩
  | grab handle =>
      cases Option.some.inj stepped
      exact ⟨rfl, fun _ _ found => found, rfl, rfl, rfl, fun _ _ => rfl⟩
  | findName name =>
      cases Option.some.inj stepped
      exact ⟨rfl, fun _ _ found => found, rfl, rfl, rfl, fun _ _ => rfl⟩
  | nameHandle handle name =>
      obtain ⟨_, manager, returned, rfl⟩ := step_nameHandle stepped
      have named := Names.nameHandle_named sound.increasing returned
      refine ⟨named.slot_size, fun i call found => ?_, rfl, rfl, rfl, fun _ _ => rfl⟩
      rw [← named.slot]
      exact found

/-- An event either checks an object in, or registers nothing. -/
theorem checkIn_or_other (event : Event) :
    (∃ obj, event = .checkIn obj) ∨ ∀ obj, event ≠ .checkIn obj := by
  by_cases isCheckIn : ∃ obj, event = .checkIn obj
  · exact Or.inl isCheckIn
  · exact Or.inr fun obj same => isCheckIn ⟨obj, same⟩

/-! ## Where the objects are -/

/-- An object that is registered under its own handle is in the slot of it. -/
def Placed (world : World) : Prop :=
  ∀ i < world.manager.slot_size, ∀ call, world.manager.slot i = some call →
    world.handle call = world.issued call →
      HandleManager.hash (world.issued call) world.manager.slot_size = i

theorem Placed.frame (placed : Placed world) (sound : Sound world) (frame : Frame world next) :
    Placed next := by
  intro i inside call found own
  rw [frame.slot_size] at inside ⊢
  have old := frame.slots i call found
  rw [frame.handle call (sound.known i call old)] at own
  rw [frame.issued] at own ⊢
  exact placed i inside call old own

/-- `checkIn` keeps the objects in their slots, whether it doubles the table or not. -/
theorem Placed.checkIn (placed : Placed world) (sound : Sound world) {obj : Nat}
    {number : UInt32} (checked : CheckedIn world obj number next) : Placed next := by
  have issuedSelf : next.issued world.calls = number := by
    rw [checked.issued, Function.update_self]
  have issuedOld : ∀ call < world.calls, next.issued call = world.issued call := by
    intro call before
    rw [checked.issued, Function.update_of_ne (Nat.ne_of_lt before)]
  intro i inside call found own
  cases checked.stored with
  | inTable _ size slot =>
      rw [slot] at found
      rw [size] at inside ⊢
      rcases PartialMap.bind_eq_some_iff.mp found with ⟨rfl, rfl⟩ | ⟨_, old⟩
      · rw [issuedSelf]
      · have before := sound.known i call old
        rw [checked.handle_eq sound before, issuedOld call before] at own
        rw [issuedOld call before]
        exact placed i inside call old own
  | inDouble new_slot _ rehashed _ size slot =>
      rw [slot] at found
      rw [size] at inside ⊢
      rcases PartialMap.bind_eq_some_iff.mp found with ⟨rfl, rfl⟩ | ⟨_, old⟩
      · rw [issuedSelf]
      · obtain ⟨k, _, isEntry, place⟩ := (rehashed.slots i call).mp old
        have before := sound.known k call isEntry
        rw [checked.handle_eq sound before] at own
        rw [← own]
        exact place

theorem placed_step (sound : Sound world) (placed : Placed world) {event : Event}
    (stepped : step world event = some next) : Placed next := by
  rcases checkIn_or_other event with ⟨obj, rfl⟩ | other
  · obtain ⟨number, checked⟩ := sound.checkedIn stepped
    exact placed.checkIn sound checked
  · exact placed.frame sound (step_frame sound other stepped)

end Manager

end EasyLua
