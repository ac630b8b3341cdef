import EasyLua.Registry.Manager

/-!
# The reserved handle 0

`handle_index` starts at 1 because 0 is reserved for the system, but it wraps around. `checkIn`
returns 0 when the slots of all numbers from `handle_index` to the last one are taken and slot 0
is free.
-/

namespace EasyLua

namespace Manager

open HandleManager Placement

/-- What relies on the handle 0 being reserved. -/
structure Reserved (world : World) : Prop where
  returned : ∀ call < world.calls, world.issued call ≠ 0
  /-- `retireAll` leaves no living object that is registered under its own handle. -/
  retiredAll : ∀ next, step world .retireAll = some next → ∀ i < next.manager.slot_size,
    ∀ call, lockSlot next.alive next.manager.slot i = some call →
      next.handle call ≠ next.issued call
  /-- `findName` does not return 0 for a name that is bound to a handle. -/
  findName : ∀ name, ∀ call < world.calls,
    Names.bindings world.manager.nameArray name = some (world.issued call) →
      world.manager.findName name ≠ 0

/-- Not 0 is the next handle when an object is checked in. -/
def Skips (world : World) (event : Event) : Prop :=
  ∀ obj, event = .checkIn obj → ¬ NextFree world.alive world.handle world.manager 0

variable {world next : World}

/-- What `retireAll` leaves registered under its own handle has the handle 0. -/
theorem Placed.retireAll (placed : Placed world) (sound : Sound world)
    (stepped : step world .retireAll = some next) {i : Nat} (inside : i < next.manager.slot_size)
    {call : Nat} (locked : lockSlot next.alive next.manager.slot i = some call)
    (own : next.handle call = next.issued call) : next.handle call = 0 := by
  have after := placed_step sound placed stepped
  obtain ⟨manager, returned, rfl⟩ := step_retireAll stepped
  obtain ⟨_, tried⟩ := retireAll_spec _ _ returned
  by_contra nonzero
  -- `retire` has missed an object that is in the slot of its handle
  have missed := tried i inside call locked nonzero
  have found : (retire world.alive world.handle manager (world.handle call)).1 = true := by
    rw [retire_iff]
    refine ⟨call, ?_, rfl⟩
    have place := after i inside call (SlotTable.lockSlot_eq_some.mp locked).1 own
    rw [← own] at place
    change HandleManager.hash (world.handle call) manager.slot_size = i at place
    rw [place]
    exact locked
  rw [found] at missed
  cases missed

/-- The handle 0 was returned. -/
def Zero (world : World) : Prop := ∃ call < world.calls, world.issued call = 0

theorem zero_of_issued {number : UInt32} (calls : next.calls = world.calls + 1)
    (issued : next.issued = Function.update world.issued world.calls number) :
    Zero next ↔ Zero world ∨ number = 0 := by
  unfold Zero
  rw [calls, issued]
  constructor
  · rintro ⟨call, below, zero⟩
    rcases Nat.lt_succ_iff_lt_or_eq.mp below with old | rfl
    · rw [Function.update_of_ne (Nat.ne_of_lt old)] at zero
      exact Or.inl ⟨call, old, zero⟩
    · rw [Function.update_self] at zero
      exact Or.inr zero
  · rintro (⟨call, old, zero⟩ | rfl)
    · refine ⟨call, Nat.lt_succ_of_lt old, ?_⟩
      rw [Function.update_of_ne (Nat.ne_of_lt old)]
      exact zero
    · exact ⟨world.calls, Nat.lt_succ_self _, Function.update_self ..⟩

theorem zero_step (sound : Sound world) {event : Event} (stepped : step world event = some next) :
    Zero next ↔ Zero world ∨ ¬ Skips world event := by
  rcases checkIn_or_other event with ⟨obj, rfl⟩ | other
  · obtain ⟨number, checked⟩ := sound.checkedIn stepped
    obtain ⟨exponent, small, size⟩ := sound.size
    have skips : ¬ Skips world (.checkIn obj) ↔ number = 0 := by
      constructor
      · intro stops
        unfold Skips at stops
        push Not at stops
        obtain ⟨_, _, zero⟩ := stops
        exact checked.isNext.unique size (by omega) zero
      · rintro rfl skips
        exact skips obj rfl checked.isNext
    rw [skips]
    exact zero_of_issued checked.calls checked.issued
  · have frame := step_frame sound other stepped
    have skips : Skips world event := fun obj same => absurd same (other obj)
    unfold Zero
    rw [frame.calls, frame.issued]
    exact ⟨Or.inl, fun before => before.elim id fun stops => absurd skips stops⟩

/-- What follows when 0 was never returned. -/
theorem reserved_of_not_zero (sound : Sound world) (placed : Placed world) (never : ¬ Zero world) :
    Reserved world where
  returned := fun call below zero => never ⟨call, below, zero⟩
  retiredAll := by
    intro next stepped i inside call locked own
    have zero := placed.retireAll sound stepped inside locked own
    have after := sound_step sound stepped
    apply never
    have frame := step_frame sound (fun obj same => by cases same) stepped
    have known := after.known i call (SlotTable.lockSlot_eq_some.mp locked).1
    rw [frame.calls] at known
    rw [own, frame.issued] at zero
    exact ⟨call, known, zero⟩
  findName := by
    intro name call below bound found
    rw [Names.findName_eq sound.increasing, bound] at found
    exact never ⟨call, below, found⟩

/-- A run that has not returned 0 met the condition in every step. -/
theorem guarded_of_not_zero (events : List Event) (ran : machine.run events = some world)
    (never : ¬ Zero world) : machine.Guarded Skips machine.init events := by
  have lost : ∀ state event after, Sound state → ¬ Skips state event →
      machine.step state event = some after → Zero after :=
    fun _ _ _ sound stops stepped => (zero_step sound stepped).mpr (Or.inr stops)
  have stays : ∀ state event after, Sound state → Zero state →
      machine.step state event = some after → Zero after :=
    fun _ _ _ sound zero stepped => (zero_step sound stepped).mpr (Or.inl zero)
  exact machine.run_guarded_of_not sound_init
    (fun _ _ _ sound stepped => sound_step sound stepped) lost stays ran never

/-- **The handle 0 stays reserved** if and only if no object is checked in when the slots of all
numbers from `handle_index` to the last one are taken and slot 0 is free. -/
theorem reserved_iff (events : List Event) (world : World)
    (ran : machine.run events = some world) :
    Reserved world ↔ machine.Guarded Skips machine.init events := by
  constructor
  · intro reserved
    apply guarded_of_not_zero events ran
    rintro ⟨call, below, zero⟩
    exact reserved.returned call below zero
  · intro guarded
    have kept : ∀ state event after, (Sound state ∧ Placed state ∧ ¬ Zero state) →
        Skips state event → machine.step state event = some after →
        Sound after ∧ Placed after ∧ ¬ Zero after := by
      intro state event after ⟨sound, placed, never⟩ skips stepped
      refine ⟨sound_step sound stepped, placed_step sound placed stepped, fun zero => ?_⟩
      rcases (zero_step sound stepped).mp zero with before | stops
      · exact never before
      · exact stops skips
    have initial : Sound machine.init ∧ Placed machine.init ∧ ¬ Zero machine.init := by
      refine ⟨sound_init, fun _ _ _ found => (by cases found), ?_⟩
      rintro ⟨call, below, _⟩
      exact absurd below (Nat.not_lt_zero call)
    obtain ⟨sound, placed, never⟩ :=
      machine.runFrom_invariant_of_guarded kept events machine.init world initial guarded ran
    exact reserved_of_not_zero sound placed never

/-- Far from the last number, 0 is not next. -/
theorem not_nextFree_zero {alive : Nat → Bool} {handle : Nat → UInt32}
    {manager : HandleManager Nat} (positive : manager.handle_index ≠ 0)
    (far : manager.handle_index.toNat + manager.slot_size * 2 ≤ 2 ^ 32) :
    ¬ NextFree alive handle manager 0 := by
  have above : 0 < manager.handle_index.toNat := by
    rw [Nat.pos_iff_ne_zero]
    intro zero
    exact positive (UInt32.toNat_inj.mp zero)
  have nonzero : ∀ i < manager.slot_size * 2,
      (0 : UInt32) ≠ UInt32.ofNat i + manager.handle_index := by
    intro i below same
    have residue := congrArg UInt32.toNat same
    rw [UInt32.toNat_add, UInt32.toNat_ofNat_of_lt' (show i < 2 ^ 32 by omega),
      Nat.mod_eq_of_lt (by omega)] at residue
    change 0 = i + manager.handle_index.toNat at residue
    omega
  rintro (⟨i, below, same, _⟩ | ⟨_, i, below, same, _⟩)
  · exact nonzero i (by omega) same
  · exact nonzero i below same

/-! ## Using up the numbers -/

/-- An object is constructed and checked in. -/
def stay (obj : Nat) : List Event := [.construct none, .checkIn obj]

/-- An object is constructed, checked in and dies. -/
def round (obj : Nat) : List Event := [.construct none, .checkIn obj, .die obj]

def rounds (n : Nat) : List Event := (List.range n).flatMap round

theorem rounds_succ (n : Nat) : rounds (n + 1) = rounds n ++ round n := by
  unfold rounds
  rw [List.range_succ, List.flatMap_append, List.flatMap_singleton]

/-- A new object has got a number, the first one with a free slot. -/
structure Uses (world : World) (number : UInt32) (last : World) : Prop where
  isFirst : FirstFree (Taken world.alive world.manager.slot) world.manager.slot_size
    world.manager.handle_index number
  sound : Sound last
  objects : last.objects = world.objects + 1
  calls : last.calls = world.calls + 1
  handle_index : last.manager.handle_index = number + 1
  slot_size : last.manager.slot_size = world.manager.slot_size
  issued : last.issued = Function.update world.issued world.calls number

/-- The new object lives and is in its slot. -/
structure Stays (world : World) (number : UInt32) (last : World) : Prop
    extends Uses world number last where
  slot : last.manager.slot = Function.update world.manager.slot
    (HandleManager.hash number world.manager.slot_size) (some world.calls)
  living : last.living = Function.update world.living world.objects true
  object : last.object = Function.update world.object world.calls world.objects

variable {last : World} {number : UInt32}

/-- The first number that is tried is used when its slot is free. -/
theorem eq_index_of_free {taken : Nat → Prop} {size : Nat} {index : UInt32}
    (isFirst : FirstFree taken size index number)
    (free : ¬ taken (HandleManager.hash index size)) : number = index := by
  obtain ⟨i, _, isNumber, _, before⟩ := isFirst
  cases i with
  | zero =>
      rw [isNumber]
      exact UInt32.zero_add _
  | succ i =>
      have first := before 0 (Nat.succ_pos i)
      rw [show UInt32.ofNat 0 + index = index from UInt32.zero_add _] at first
      exact absurd first free

/-- Two tables have the same living objects in a slot of which neither the object nor its life
has changed. -/
theorem taken_congr {alive other : Nat → Bool} {slot slots : Nat → Option Nat} {i : Nat}
    (same : slots i = slot i) (lives : ∀ call, slot i = some call → other call = alive call) :
    Taken other slots i ↔ Taken alive slot i := by
  refine exists_congr fun call => ?_
  rw [SlotTable.lockSlot_eq_some, SlotTable.lockSlot_eq_some, same]
  exact and_congr_right fun found => by rw [lives call found]

theorem exists_stay (sound : Sound world) (notFull : ¬ Full world.alive world.manager) :
    ∃ number last, machine.runFrom world (stay world.objects) = some last ∧
      Stays world number last := by
  obtain ⟨born, construct, manager, objects, living, object, calls, issued⟩ : ∃ born,
      step world (.construct none) = some born ∧ born.manager = world.manager ∧
      born.objects = world.objects + 1 ∧
      born.living = Function.update world.living world.objects true ∧
      born.object = world.object ∧ born.calls = world.calls ∧ born.issued = world.issued :=
    ⟨_, rfl, rfl, rfl, rfl, rfl, rfl, rfl⟩
  have soundBorn := sound_step sound construct
  -- the new object is in no slot
  have taken : ∀ i, Taken born.alive born.manager.slot i ↔
      Taken world.alive world.manager.slot i := by
    intro i
    apply taken_congr
    · rw [manager]
    · intro call found
      have old := sound.object call (sound.known i call found)
      unfold World.alive
      rw [living, object, Function.update_of_ne (Nat.ne_of_lt old)]
  have full : Full born.alive born.manager ↔ Full world.alive world.manager := by
    unfold Full
    rw [manager] at taken ⊢
    exact forall₂_congr fun i _ => taken i
  have lives : born.living world.objects = true := by
    rw [living, Function.update_self]
  obtain ⟨next, stepped, size⟩ :=
    soundBorn.exists_checkIn lives fun isFull => notFull (full.mp isFull)
  obtain ⟨number, checked⟩ := soundBorn.checkedIn stepped
  refine ⟨number, next, ?_, ⟨⟨?_, sound_step soundBorn stepped, checked.objects.trans objects, ?_,
    checked.handle_index, ?_, ?_⟩, ?_, checked.living.trans living, ?_⟩⟩
  · unfold stay
    have first : machine.step world (.construct none) = some born := construct
    have second : machine.step born (.checkIn world.objects) = some next := stepped
    rw [machine.runFrom_cons, first, Option.bind_some, machine.runFrom_cons, second]
    rfl
  · rcases checked.isNext with isFirst | ⟨isFull, _⟩
    · rw [manager] at isFirst taken
      exact FirstFree.congr taken isFirst
    · exact absurd (full.mp isFull) notFull
  · rw [checked.calls, calls]
  · rw [size, manager]
  · rw [checked.issued, issued, calls]
  · cases checked.stored with
    | inTable _ _ slot => rw [slot, manager, calls]
    | inDouble _ isFull _ _ _ _ => exact absurd (full.mp isFull) notFull
  · rw [checked.object, object, calls]

theorem Stays.object_of_lt (stays : Stays world number last) {call : Nat}
    (before : call < world.calls) : last.object call = world.object call := by
  rw [stays.object, Function.update_of_ne (Nat.ne_of_lt before)]

/-- The new object takes its slot. -/
theorem Stays.taken_iff (stays : Stays world number last) (sound : Sound world) (i : Nat) :
    Taken last.alive last.manager.slot i ↔ Taken world.alive world.manager.slot i ∨
      i = HandleManager.hash number world.manager.slot_size := by
  by_cases here : i = HandleManager.hash number world.manager.slot_size
  · refine ⟨fun _ => Or.inr here, fun _ => ⟨world.calls, ?_⟩⟩
    rw [SlotTable.lockSlot_eq_some, stays.slot, here, Function.update_self]
    unfold World.alive
    rw [stays.object, stays.living, Function.update_self, Function.update_self]
    exact ⟨rfl, rfl⟩
  · rw [or_iff_left here]
    apply taken_congr
    · rw [stays.slot, Function.update_of_ne here]
    · intro call found
      have before := sound.known i call found
      unfold World.alive
      rw [stays.object_of_lt before, stays.living,
        Function.update_of_ne (Nat.ne_of_lt (sound.object call before))]

/-- An object that dies again uses up a number, and takes no slot. -/
theorem exists_round (sound : Sound world) (notFull : ¬ Full world.alive world.manager) :
    ∃ number last, machine.runFrom world (round world.objects) = some last ∧
      Uses world number last ∧ ∀ i, Taken last.alive last.manager.slot i ↔
        Taken world.alive world.manager.slot i := by
  obtain ⟨number, next, ran, stays⟩ := exists_stay sound notFull
  have lives : next.living world.objects = true := by
    rw [stays.living, Function.update_self]
  have dies : step next (.die world.objects) =
      some { next with living := Function.update next.living world.objects false } :=
    if_pos lives
  refine ⟨number, _, ?_, ⟨stays.isFirst, sound_step stays.sound dies, stays.objects, stays.calls,
    stays.handle_index, stays.slot_size, stays.issued⟩, fun i => ?_⟩
  · change machine.runFrom world (stay world.objects ++ [.die world.objects]) = _
    rw [machine.runFrom_append, ran]
    exact congrArg (Option.bind · _) dies
  · by_cases here : i = HandleManager.hash number world.manager.slot_size
    · obtain ⟨_, _, _, free, _⟩ := stays.isFirst
      rw [here]
      refine ⟨fun ⟨call, locked⟩ => ?_, fun taken => absurd taken free⟩
      obtain ⟨found, alive⟩ := SlotTable.lockSlot_eq_some.mp locked
      dsimp only at found
      rw [stays.slot, Function.update_self] at found
      cases Option.some.inj found
      dsimp only [World.alive] at alive
      rw [stays.object, Function.update_self, Function.update_self] at alive
      cases alive
    · apply taken_congr
      · dsimp only
        rw [stays.slot, Function.update_of_ne here]
      · intro call found
        have before := sound.known i call found
        have older := Nat.ne_of_lt (sound.object call before)
        dsimp only [World.alive]
        rw [stays.object_of_lt before, Function.update_of_ne older, stays.living,
          Function.update_of_ne older]

/-- The numbers from 1 to `n` have been returned, and no slot is taken. -/
structure UsedUp (n : Nat) (world : World) : Prop where
  objects : world.objects = n
  calls : world.calls = n
  handle_index : world.manager.handle_index = UInt32.ofNat (n + 1)
  slot_size : world.manager.slot_size = 4
  untaken : ∀ i, ¬ Taken world.alive world.manager.slot i
  issued : ∀ call < n, world.issued call = UInt32.ofNat (call + 1)

/-- The table has a free slot when the slot 1 of four is not taken. -/
theorem not_full_of_free (size : world.manager.slot_size = 4)
    (free : ¬ Taken world.alive world.manager.slot 1) : ¬ Full world.alive world.manager := by
  intro full
  apply free (full 1 _)
  rw [size]
  decide

theorem rounds_run (n : Nat) : ∃ world, machine.run (rounds n) = some world ∧ UsedUp n world := by
  induction n with
  | zero =>
      refine ⟨machine.init, rfl, rfl, rfl, rfl, rfl, ?_, fun call below => ?_⟩
      · rintro i ⟨call, locked⟩
        cases locked
      · exact absurd below (Nat.not_lt_zero call)
  | succ n ih =>
      obtain ⟨world, ran, before⟩ := ih
      obtain ⟨number, last, later, uses, taken⟩ :=
        exists_round (sound_run _ world ran) (not_full_of_free before.slot_size (before.untaken 1))
      have isIndex := eq_index_of_free uses.isFirst (before.untaken _)
      refine ⟨last, ?_, ?_, ?_, ?_, uses.slot_size.trans before.slot_size, fun i => ?_,
        fun call below => ?_⟩
      · rw [rounds_succ, machine.run_append, ran, ← before.objects]
        exact later
      · rw [uses.objects, before.objects]
      · rw [uses.calls, before.calls]
      · rw [uses.handle_index, isIndex, before.handle_index, UInt32.ofNat_add (n + 1) 1]
        rfl
      · rw [taken]
        exact before.untaken i
      · rw [uses.issued, before.calls, isIndex]
        by_cases same : call = n
        · rw [same, Function.update_self, before.handle_index]
        · rw [Function.update_of_ne same]
          exact before.issued call (by omega)

/-- The call of `checkIn` number 2^32 returns 0. -/
theorem not_reserved_wrapped : ∃ world, machine.run (rounds (2 ^ 32)) = some world ∧
    ¬ Reserved world := by
  obtain ⟨world, ran, used⟩ := rounds_run (2 ^ 32)
  have last : 2 ^ 32 - 1 < world.calls := by
    rw [used.calls]
    omega
  refine ⟨world, ran, fun reserved => ?_⟩
  apply reserved.returned (2 ^ 32 - 1) last
  rw [used.issued _ (by omega)]
  rfl

/-- An object holds slot 0 of four, the other slots are free, and 0 was never returned. -/
structure Holding (index : UInt32) (objects : Nat) (world : World) : Prop where
  sound : Sound world
  objects : world.objects = objects
  handle_index : world.manager.handle_index = index
  slot_size : world.manager.slot_size = 4
  taken : ∀ i, Taken world.alive world.manager.slot i ↔ i = 0
  never : ¬ Zero world

theorem Holding.not_full {index : UInt32} {objects : Nat} (held : Holding index objects world) :
    ¬ Full world.alive world.manager := by
  apply not_full_of_free held.slot_size
  rw [held.taken]
  decide

/-- A number that has another slot than 0 is used up. -/
theorem Holding.round {index : UInt32} {objects : Nat} (held : Holding index objects world)
    (nonzero : index ≠ 0) (elsewhere : HandleManager.hash index 4 ≠ 0) {following : UInt32}
    {more : Nat} (isNext : index + 1 = following) (oneMore : objects + 1 = more) :
    ∃ last, machine.runFrom world (Manager.round objects) = some last ∧
      Holding following more last := by
  obtain ⟨number, last, ran, uses, taken⟩ := exists_round held.sound held.not_full
  have free : ¬ Taken world.alive world.manager.slot
      (HandleManager.hash world.manager.handle_index world.manager.slot_size) := by
    rw [held.taken, held.handle_index, held.slot_size]
    exact elsewhere
  have isIndex : number = index := by
    rw [← held.handle_index]
    exact eq_index_of_free uses.isFirst free
  rw [held.objects] at ran
  refine ⟨last, ran, uses.sound, ?_, ?_, uses.slot_size.trans held.slot_size, fun i => ?_, ?_⟩
  · rw [uses.objects, held.objects, oneMore]
  · rw [uses.handle_index, isIndex, isNext]
  · rw [taken, held.taken]
  · rw [zero_of_issued uses.calls uses.issued, isIndex]
    exact fun zero => zero.elim held.never nonzero

/-- The number 2^32 - 4 gets slot 0. -/
theorem exists_held : ∃ world, machine.run (rounds (2 ^ 32 - 5) ++ stay (2 ^ 32 - 5)) = some world ∧
    Holding 4294967293 (2 ^ 32 - 4) world := by
  obtain ⟨before, ran, used⟩ := rounds_run (2 ^ 32 - 5)
  have sound := sound_run _ before ran
  have never : ¬ Zero before := by
    rintro ⟨call, below, zero⟩
    rw [used.calls] at below
    rw [used.issued call below] at zero
    have same := congrArg UInt32.toNat zero
    rw [UInt32.toNat_ofNat_of_lt' (show call + 1 < 2 ^ 32 by omega)] at same
    exact Nat.succ_ne_zero call same
  obtain ⟨number, world, later, stays⟩ :=
    exists_stay sound (not_full_of_free used.slot_size (used.untaken 1))
  have isNumber : number = 4294967292 := by
    rw [eq_index_of_free stays.isFirst (used.untaken _), used.handle_index]
    rfl
  refine ⟨world, ?_, stays.sound, ?_, ?_, stays.slot_size.trans used.slot_size, fun i => ?_, ?_⟩
  · rw [machine.run_append, ran, ← used.objects]
    exact later
  · have objects := stays.objects
    rw [used.objects] at objects
    omega
  · rw [stays.handle_index, isNumber]
    rfl
  · rw [stays.taken_iff sound, isNumber, used.slot_size]
    exact or_iff_right (used.untaken i)
  · rw [zero_of_issued stays.calls stays.issued, isNumber]
    exact fun zero => zero.elim never (by decide)

/-- The numbers up to 2^32 - 1 are used up while an object holds slot 0; then another object is
checked in. -/
def acrossWrap : List Event :=
  rounds (2 ^ 32 - 5) ++ stay (2 ^ 32 - 5) ++ round (2 ^ 32 - 4) ++ round (2 ^ 32 - 3) ++
    round (2 ^ 32 - 2) ++ stay (2 ^ 32 - 1)

/-- It gets the number 1, and 0 stays reserved. -/
theorem reserved_iff_wrap : ∃ world, machine.run acrossWrap = some world ∧
    world.manager.handle_index = 2 ∧ Reserved world := by
  obtain ⟨first, ran, held⟩ := exists_held
  obtain ⟨second, ranSecond, heldSecond⟩ : ∃ second, machine.runFrom first (round (2 ^ 32 - 4)) =
      some second ∧ Holding 4294967294 (2 ^ 32 - 3) second :=
    held.round (by decide) (by decide) (by decide) (by omega)
  obtain ⟨third, ranThird, heldThird⟩ : ∃ third, machine.runFrom second (round (2 ^ 32 - 3)) =
      some third ∧ Holding 4294967295 (2 ^ 32 - 2) third :=
    heldSecond.round (by decide) (by decide) (by decide) (by omega)
  obtain ⟨fourth, ranFourth, wrapped⟩ : ∃ fourth, machine.runFrom third (round (2 ^ 32 - 2)) =
      some fourth ∧ Holding 0 (2 ^ 32 - 1) fourth :=
    heldThird.round (by decide) (by decide) (by decide) (by omega)
  obtain ⟨number, world, later, stays⟩ := exists_stay wrapped.sound wrapped.not_full
  have isOne : number = 1 := by
    obtain ⟨i, _, isNumber, free, before⟩ := stays.isFirst
    rw [wrapped.handle_index] at isNumber before
    rw [wrapped.slot_size] at before free
    match i with
    | 0 =>
        rw [isNumber] at free
        exact absurd ((wrapped.taken _).mpr rfl) free
    | 1 => exact isNumber
    | i + 2 =>
        have taken := (wrapped.taken _).mp (before 1 (by omega))
        exact absurd taken (by decide)
  have final : machine.run acrossWrap = some world := by
    unfold acrossWrap
    rw [machine.run_append, machine.run_append, machine.run_append, machine.run_append, ran,
      Option.bind_some, ranSecond, Option.bind_some, ranThird, Option.bind_some, ranFourth,
      Option.bind_some]
    rw [wrapped.objects] at later
    exact later
  have never : ¬ Zero world := by
    rw [zero_of_issued stays.calls stays.issued, isOne]
    exact fun zero => zero.elim wrapped.never (by decide)
  have reserved : ∀ events, machine.run events = some world → Reserved world :=
    fun events ran => (reserved_iff events world ran).mpr (guarded_of_not_zero events ran never)
  refine ⟨world, final, ?_, reserved acrossWrap final⟩
  rw [stays.handle_index, isOne]
  rfl

end Manager

end EasyLua
