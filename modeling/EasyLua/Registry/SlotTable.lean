import EasyLua.Foundation.Machine
import EasyLua.Foundation.PartialMap
import EasyLua.Foundation.Probing
import EasyLua.Registry.HandleManager

/-!
# The slot table of the handle manager

Objects are checked in, retired and grabbed, and die whenever no operation runs. An object
returns from `handle()` what `checkIn` has returned for it. Whom a handle was issued to last,
and that it has not been retired, is recorded apart from the slots.
-/

namespace EasyLua

namespace SlotTable

open HandleManager

/-- The manager, the objects that have been checked in and live, numbered in the order of
their check-in, and what their `handle()` returns; and for each handle the object to which
it was last issued, unless it has been retired since. -/
structure World where
  manager : HandleManager Nat
  living : List Nat
  handle : Nat → UInt32
  created : Nat
  issued : UInt32 → Option Nat

/-- One operation, or the death of an object. -/
inductive Event
  /-- `checkIn` of an object that has not been checked in before. -/
  | checkIn
  | retire (handle : UInt32)
  /-- `retireAll` whose rounds no other operation interrupts; an interrupted one is the
  `retire` of each of its rounds. -/
  | retireAll
  | grab (handle : UInt32)
  | die (obj : Nat)

namespace World

variable (world : World)

def alive (obj : Nat) : Bool := world.living.contains obj

/-- The next object, before it is checked in. -/
def birth : World :=
  { world with
    living := world.created :: world.living
    created := world.created + 1 }

/-- `checkIn` of the object has returned a handle. -/
def issue (obj : Nat) (handle : UInt32) (manager : HandleManager Nat) : World :=
  { world with
    manager
    handle := Function.update world.handle obj handle
    issued := Function.update world.issued handle (some obj) }

end World

/-- One step; no result when the operation does not return, or the object does not live. -/
def step (world : World) : Event → Option World
  | .checkIn =>
      match checkIn world.birth.alive world.handle world.created 2 world.manager with
      | .ok (handle, manager) => some (world.birth.issue world.created handle manager)
      | .error _ => none
  | .retire handle =>
      some { world with
        manager := (retire world.alive world.handle world.manager handle).2
        issued := Function.update world.issued handle none }
  | .retireAll =>
      match retireAll world.alive world.handle 2 world.manager with
      | .ok manager =>
          some { world with
            manager
            -- the handle 0 is skipped
            issued := Function.update (fun _ => none) 0 (world.issued 0) }
      | .error _ => none
  | .grab _ => some world
  | .die obj =>
      if world.alive obj then some { world with living := world.living.erase obj } else none

/-- The histories of a handle manager. -/
def machine : Machine World Event where
  init := {
    manager := .init
    living := []
    handle := fun _ => 0
    created := 0
    issued := fun _ => none }
  step := step

/-- A slot holds living objects only under the handle that was issued to them, and a handle
that is issued to a living object is found in its slot. -/
structure Sound (world : World) : Prop where
  size : ∃ exponent, world.manager.slot_size = 2 ^ exponent ∧ exponent ≤ 29
  placed : Probing.Placed world.manager.slot_size world.manager.slot (· ∈ world.living)
    fun obj => (world.handle obj).toNat
  slots : ∀ i < world.manager.slot_size, ∀ obj, world.manager.slot i = some obj →
    obj ∈ world.living → world.issued (world.handle obj) = some obj
  issued : ∀ handle obj, world.issued handle = some obj → obj ∈ world.living →
    world.handle obj = handle ∧
      world.manager.slot (handle.toNat % world.manager.slot_size) = some obj
  nodup : world.living.Nodup
  living : ∀ obj ∈ world.living, obj < world.created
  known : ∀ i obj, world.manager.slot i = some obj → obj < world.created
  knownIssued : ∀ handle obj, world.issued handle = some obj → obj < world.created

variable {world next : World}

/-! ## Slots -/

theorem lockSlot_eq_some {T : Type} {alive : T → Bool} {slot : Nat → Option T} {i : Nat} {obj : T} :
    lockSlot alive slot i = some obj ↔ slot i = some obj ∧ alive obj = true := by
  unfold lockSlot
  rw [Option.bind_eq_some_iff]
  constructor
  · rintro ⟨weak, found, locked⟩
    obtain ⟨living, rfl⟩ := Register.lock_eq_some.mp locked
    exact ⟨found, living⟩
  · rintro ⟨found, living⟩
    exact ⟨obj, found, Register.lock_eq_some.mpr ⟨living, rfl⟩⟩

theorem alive_iff {obj : Nat} : world.alive obj = true ↔ obj ∈ world.living :=
  List.contains_iff_mem

/-- The mask takes the residue of a handle. -/
theorem hash_eq {exponent : Nat} (small : exponent < 32) (handle : UInt32) :
    HandleManager.hash handle (2 ^ exponent) = handle.toNat % 2 ^ exponent := by
  have fits : 2 ^ exponent - 1 < 2 ^ 32 := by
    have := Nat.pow_lt_pow_right (show 1 < 2 by decide) small
    omega
  unfold HandleManager.hash
  rw [UInt32.toNat_and, UInt32.toNat_ofNat_of_lt' fits]
  exact Nat.and_two_pow_sub_one_eq_mod _ _

/-- The handles that are probed visit every slot. -/
theorem exists_probe {exponent : Nat} (small : exponent ≤ 31) (index : UInt32) {i : Nat}
    (inside : i < 2 ^ exponent) :
    ∃ j < 2 ^ exponent, HandleManager.hash (UInt32.ofNat j + index) (2 ^ exponent) = i := by
  obtain ⟨j, below, visits⟩ := Probing.exists_visit index.toNat inside
  refine ⟨j, below, ?_⟩
  have within : j < 2 ^ 32 :=
    Nat.lt_trans below (Nat.pow_lt_pow_right (by decide) (Nat.lt_succ_of_le small))
  rw [hash_eq (Nat.lt_succ_of_le small), UInt32.toNat_add, UInt32.toNat_ofNat_of_lt' within,
    Nat.mod_mod_of_dvd _ (Nat.pow_dvd_pow 2 (by omega))]
  exact visits

/-! ## The loops of `checkIn` -/

/-- The first loop finds every probed slot taken, or stores the object in a free one. -/
theorem probe_cases {T : Type} (alive : T → Bool) (manager : HandleManager T) (ctx : T)
    (count : Nat) : ∀ i,
    (probe alive manager ctx count i = none ∧
      ∀ j, i ≤ j → j < i + count → lockSlot alive manager.slot
        (HandleManager.hash (UInt32.ofNat j + manager.handle_index) manager.slot_size) ≠ none) ∨
    ∃ handle, lockSlot alive manager.slot (HandleManager.hash handle manager.slot_size) = none ∧
      probe alive manager ctx count i = some (handle, { manager with
        slot := Function.update manager.slot (HandleManager.hash handle manager.slot_size)
          (some ctx)
        handle_index := handle + 1 }) := by
  induction count with
  | zero =>
      intro i
      exact Or.inl ⟨rfl, fun j least below => by omega⟩
  | succ count ih =>
      intro i
      unfold probe
      by_cases free : lockSlot alive manager.slot (HandleManager.hash
          (UInt32.ofNat i + manager.handle_index) manager.slot_size) = none
      · exact Or.inr ⟨_, free, if_pos (Option.isNone_iff_eq_none.mpr free)⟩
      · rw [if_neg (fun empty => free (Option.isNone_iff_eq_none.mp empty))]
        refine (ih (i + 1)).imp_left fun ⟨missed, taken⟩ => ⟨missed, fun j least below => ?_⟩
        rcases Nat.eq_or_lt_of_le least with rfl | later
        · exact free
        · exact taken j later (by omega)

/-- The slots of the first `i` rounds of the second loop. -/
def Rehashed (handle : Nat → UInt32) (manager : HandleManager Nat) (i : Nat)
    (new_slot : Nat → Option Nat) : Prop :=
  ∀ j obj, new_slot j = some obj ↔ ∃ k < i, manager.slot k = some obj ∧
    (handle obj).toNat % (manager.slot_size * 2) = j

/-- Every slot holds a living object. -/
def Full (world : World) : Prop :=
  ∀ i < world.manager.slot_size, ∃ obj ∈ world.living, world.manager.slot i = some obj

variable {exponent : Nat}

/-- One round of the second loop finds its new slot free. -/
theorem Rehashed.round {i obj : Nat} {new_slot : Nat → Option Nat}
    (placed : Probing.Placed world.manager.slot_size world.manager.slot (· ∈ world.living)
      fun obj => (world.handle obj).toNat)
    (full : Full world) (inside : i < world.manager.slot_size)
    (found : world.manager.slot i = some obj)
    (rehashed : Rehashed world.handle world.manager i new_slot) :
    new_slot ((world.handle obj).toNat % (world.manager.slot_size * 2)) = none ∧
      Rehashed world.handle world.manager (i + 1) (Function.update new_slot
        ((world.handle obj).toNat % (world.manager.slot_size * 2)) (some obj)) := by
  have stored : ∀ j < world.manager.slot_size, ∀ other, world.manager.slot j = some other →
      other ∈ world.living := by
    intro j below other isOther
    obtain ⟨entry, living, isEntry⟩ := full j below
    exact Option.some.inj (isEntry.symm.trans isOther) ▸ living
  have apart : ∀ k < i, ∀ other, world.manager.slot k = some other →
      (world.handle other).toNat % (world.manager.slot_size * 2) ≠
        (world.handle obj).toNat % (world.manager.slot_size * 2) := by
    intro k below other isOther same
    have := placed.double_inj (Nat.lt_trans below inside) inside isOther found
      (stored k (Nat.lt_trans below inside) other isOther) (stored i inside obj found) same
    omega
  constructor
  · rcases taken : new_slot _ with _ | other
    · rfl
    · obtain ⟨k, below, isOther, same⟩ := (rehashed _ other).mp taken
      exact absurd same (apart k below other isOther)
  · intro j other
    rw [PartialMap.bind_eq_some_iff, rehashed j other]
    constructor
    · rintro (⟨rfl, rfl⟩ | ⟨_, k, below, rest⟩)
      · exact ⟨i, Nat.lt_succ_self i, found, rfl⟩
      · exact ⟨k, Nat.lt_succ_of_lt below, rest⟩
    · rintro ⟨k, below, isOther, rfl⟩
      rcases Nat.lt_succ_iff_lt_or_eq.mp below with earlier | rfl
      · exact Or.inr ⟨apart k earlier other isOther, k, earlier, isOther, rfl⟩
      · cases Option.some.inj (found.symm.trans isOther)
        exact Or.inl ⟨rfl, rfl⟩

/-- The assertion of the second loop never fails, and every registration is moved. -/
theorem rehash_ok
    (placed : Probing.Placed world.manager.slot_size world.manager.slot (· ∈ world.living)
      fun obj => (world.handle obj).toNat)
    (full : Full world) (size : world.manager.slot_size = 2 ^ exponent) (small : exponent ≤ 28)
    (count : Nat) : ∀ i new_slot, i + count = world.manager.slot_size →
      Rehashed world.handle world.manager i new_slot →
      ∃ doubled, rehash world.alive world.handle world.manager count i new_slot = .ok doubled ∧
        Rehashed world.handle world.manager world.manager.slot_size doubled := by
  induction count with
  | zero =>
      intro i new_slot done rehashed
      exact ⟨new_slot, rfl, done ▸ rehashed⟩
  | succ count ih =>
      intro i new_slot left rehashed
      have inside : i < world.manager.slot_size := by omega
      obtain ⟨obj, living, found⟩ := full i inside
      obtain ⟨free, extended⟩ := rehashed.round placed full inside found
      obtain ⟨doubled, finished, complete⟩ := ih (i + 1) _ (by omega) extended
      refine ⟨doubled, ?_, complete⟩
      have residue : HandleManager.hash (world.handle obj) (world.manager.slot_size * 2) =
          (world.handle obj).toNat % (world.manager.slot_size * 2) := by
        rw [size, ← Nat.pow_succ]
        exact hash_eq (by omega) _
      have unlocked : lockSlot world.alive new_slot
          ((world.handle obj).toNat % (world.manager.slot_size * 2)) = none := by
        unfold lockSlot
        rw [free]
        rfl
      unfold rehash
      rw [lockSlot_eq_some.mpr ⟨found, alive_iff.mpr living⟩]
      simp only [residue, unlocked, Option.isSome_none, Bool.false_eq_true, if_false, found]
      exact finished

/-! ## Storing and moving registrations -/

/-- The object is in no slot, and no handle is issued to it. -/
structure Unregistered (world : World) (obj : Nat) : Prop where
  slot : ∀ i, world.manager.slot i ≠ some obj
  issued : ∀ handle, world.issued handle ≠ some obj

theorem Sound.unregistered (sound : Sound world) : Unregistered world.birth world.created where
  slot := fun i found => Nat.lt_irrefl _ (sound.known i _ found)
  issued := fun handle found => Nat.lt_irrefl _ (sound.knownIssued handle _ found)

/-- A living object of a world after a birth is the new one, or was living before. -/
theorem mem_birth {obj : Nat} (different : obj ≠ world.created)
    (member : obj ∈ world.birth.living) : obj ∈ world.living := by
  rcases List.mem_cons.mp member with new | old
  · exact absurd new different
  · exact old

theorem Sound.birth (sound : Sound world) : Sound world.birth where
  size := sound.size
  placed := sound.placed.mono fun i _ found living =>
    ⟨found, mem_birth (fun new => sound.unregistered.slot i (new ▸ found)) living⟩
  slots := fun i inside obj found living => sound.slots i inside obj found
    (mem_birth (fun new => sound.unregistered.slot i (new ▸ found)) living)
  issued := fun handle obj issued living => sound.issued handle obj issued
    (mem_birth (fun new => sound.unregistered.issued handle (new ▸ issued)) living)
  nodup := List.nodup_cons.mpr
    ⟨fun living => Nat.lt_irrefl _ (sound.living _ living), sound.nodup⟩
  living := by
    intro obj member
    rcases List.mem_cons.mp member with rfl | old
    · exact Nat.lt_succ_self _
    · exact Nat.lt_succ_of_lt (sound.living obj old)
  known := fun i obj found => Nat.lt_succ_of_lt (sound.known i obj found)
  knownIssued := fun handle obj issued => Nat.lt_succ_of_lt (sound.knownIssued handle obj issued)

/-- The death of an object takes nothing from the others. -/
theorem Sound.die (sound : Sound world) (obj : Nat) :
    Sound { world with living := world.living.erase obj } where
  size := sound.size
  placed := sound.placed.mono fun _ _ found living => ⟨found, List.mem_of_mem_erase living⟩
  slots := fun i inside other found living =>
    sound.slots i inside other found (List.mem_of_mem_erase living)
  issued := fun handle other issued living =>
    sound.issued handle other issued (List.mem_of_mem_erase living)
  nodup := sound.nodup.erase obj
  living := fun other living => sound.living other (List.mem_of_mem_erase living)
  known := sound.known
  knownIssued := sound.knownIssued

/-- The world after a doubling of the slots. -/
def doubled (world : World) (new_slot : Nat → Option Nat) : World :=
  { world with
    manager := { world.manager with
      slot := new_slot
      slot_size := world.manager.slot_size * 2 } }

/-- The doubling of a full table loses no registration, and frees a slot. -/
theorem Sound.double (sound : Sound world) {new_slot : Nat → Option Nat}
    (small : world.manager.slot_size ≤ 2 ^ 28)
    (rehashed : Rehashed world.handle world.manager world.manager.slot_size new_slot) :
    Sound (doubled world new_slot) where
  size := by
    obtain ⟨exponent, size, _⟩ := sound.size
    refine ⟨exponent + 1, by rw [Nat.pow_succ, ← size]; rfl, ?_⟩
    rw [size] at small
    have := (Nat.pow_le_pow_iff_right (show 1 < 2 by decide)).mp small
    omega
  placed := by
    intro j inside obj found _
    obtain ⟨i, below, isObj, residue⟩ := (rehashed j obj).mp found
    exact residue
  slots := by
    intro j inside obj found living
    obtain ⟨i, below, isObj, _⟩ := (rehashed j obj).mp found
    exact sound.slots i below obj isObj living
  issued := by
    intro handle obj issued living
    obtain ⟨isHandle, found⟩ := sound.issued handle obj issued living
    obtain ⟨exponent, size, _⟩ := sound.size
    refine ⟨isHandle, (rehashed _ obj).mpr ⟨_, Nat.mod_lt _ ?_, found, ?_⟩⟩
    · rw [size]
      exact Nat.two_pow_pos exponent
    · rw [show world.handle obj = handle from isHandle]
      rfl
  nodup := sound.nodup
  living := sound.living
  known := by
    intro j obj found
    obtain ⟨i, _, isObj, _⟩ := (rehashed j obj).mp found
    exact sound.known i obj isObj
  knownIssued := sound.knownIssued

/-- The object is stored under a handle whose slot holds no living one. -/
theorem Sound.store (sound : Sound world) {obj : Nat} {handle index : UInt32}
    (unregistered : Unregistered world obj) (living : obj ∈ world.living)
    (free : ∀ other ∈ world.living,
      world.manager.slot (handle.toNat % world.manager.slot_size) ≠ some other) :
    Sound (world.issue obj handle { world.manager with
      slot := Function.update world.manager.slot (handle.toNat % world.manager.slot_size)
        (some obj)
      handle_index := index }) where
  size := sound.size
  placed := by
    intro i inside other found alive
    rcases PartialMap.bind_eq_some_iff.mp found with ⟨rfl, rfl⟩ | ⟨_, old⟩
    · dsimp only [World.issue]
      rw [Function.update_self]
    · have different : other ≠ obj := fun same => unregistered.slot i (same ▸ old)
      dsimp only [World.issue]
      rw [Function.update_of_ne different]
      exact sound.placed i inside other old alive
  slots := by
    intro i inside other found alive
    rcases PartialMap.bind_eq_some_iff.mp found with ⟨rfl, rfl⟩ | ⟨here, old⟩
    · dsimp only [World.issue]
      rw [Function.update_self, Function.update_self]
    · have different : other ≠ obj := fun same => unregistered.slot i (same ▸ old)
      have place := sound.placed i inside other old alive
      dsimp only [World.issue]
      rw [Function.update_of_ne different,
        Function.update_of_ne (fun same => here (by rw [← place, ← same]))]
      exact sound.slots i inside other old alive
  issued := by
    intro asked other issued alive
    rcases PartialMap.bind_eq_some_iff.mp issued with ⟨rfl, rfl⟩ | ⟨_, old⟩
    · dsimp only [World.issue]
      rw [Function.update_self, Function.update_self]
      exact ⟨rfl, rfl⟩
    · obtain ⟨isHandle, found⟩ := sound.issued asked other old alive
      have different : other ≠ obj := fun new => unregistered.issued asked (new ▸ old)
      have elsewhere : asked.toNat % world.manager.slot_size ≠
          handle.toNat % world.manager.slot_size :=
        fun taken => free other alive (taken ▸ found)
      dsimp only [World.issue]
      rw [Function.update_of_ne different, Function.update_of_ne elsewhere]
      exact ⟨isHandle, found⟩
  nodup := sound.nodup
  living := sound.living
  known := by
    intro i other found
    rcases PartialMap.bind_eq_some_iff.mp found with ⟨_, rfl⟩ | ⟨_, old⟩
    · exact sound.living obj living
    · exact sound.known i other old
  knownIssued := by
    intro asked other issued
    rcases PartialMap.bind_eq_some_iff.mp issued with ⟨_, rfl⟩ | ⟨_, old⟩
    · exact sound.living obj living
    · exact sound.knownIssued asked other old

/-! ## `checkIn` and `grab` -/

theorem Sound.hash_eq (sound : Sound world) (handle : UInt32) :
    HandleManager.hash handle world.manager.slot_size =
      handle.toNat % world.manager.slot_size := by
  obtain ⟨exponent, size, small⟩ := sound.size
  rw [size]
  exact SlotTable.hash_eq (by omega) handle

theorem Sound.size_pos (sound : Sound world) : 0 < world.manager.slot_size := by
  obtain ⟨exponent, size, _⟩ := sound.size
  rw [size]
  exact Nat.two_pow_pos exponent

/-- The first loop misses a full table only. -/
theorem Sound.full_of_probe (sound : Sound world) {obj : Nat}
    (missed : probe world.alive world.manager obj world.manager.slot_size 0 = none) :
    Full world := by
  obtain ⟨_, taken⟩ | ⟨_, _, found⟩ :=
    probe_cases world.alive world.manager obj world.manager.slot_size 0
  · intro i inside
    obtain ⟨exponent, size, small⟩ := sound.size
    obtain ⟨j, below, visits⟩ := exists_probe (by omega : exponent ≤ 31)
      world.manager.handle_index (size ▸ inside)
    have locked := taken j (Nat.zero_le j) (by rw [Nat.zero_add, size]; exact below)
    rw [size, visits] at locked
    obtain ⟨other, isOther⟩ := Option.ne_none_iff_exists'.mp locked
    obtain ⟨found, living⟩ := lockSlot_eq_some.mp isOther
    exact ⟨other, alive_iff.mp living, found⟩
  · rw [missed] at found
    cases found

/-- What the first loop stores is registered under the handle it returns. -/
theorem Sound.stored (sound : Sound world) {obj : Nat} {handle : UInt32}
    {manager : HandleManager Nat} (unregistered : Unregistered world obj)
    (living : obj ∈ world.living)
    (probed : probe world.alive world.manager obj world.manager.slot_size 0 =
      some (handle, manager)) :
    manager.slot_size = world.manager.slot_size ∧ Sound (world.issue obj handle manager) ∧
      ∀ other ∈ world.living, world.issued handle ≠ some other := by
  obtain ⟨missed, _⟩ | ⟨asked, free, found⟩ :=
    probe_cases world.alive world.manager obj world.manager.slot_size 0
  · rw [missed] at probed
    cases probed
  · rw [probed] at found
    cases Option.some.inj found
    rw [sound.hash_eq] at free ⊢
    have unused : ∀ other ∈ world.living,
        world.manager.slot (handle.toNat % world.manager.slot_size) ≠ some other := by
      intro other alive isOther
      rw [lockSlot_eq_some.mpr ⟨isOther, alive_iff.mpr alive⟩] at free
      cases free
    refine ⟨rfl, sound.store unregistered living unused, ?_⟩
    intro other alive issued
    exact unused other alive (sound.issued handle other issued alive).2

section Rounds

variable {T : Type} {alive : T → Bool} {handle : T → UInt32} {manager : HandleManager T} {ctx : T}

theorem checkIn_of_probe {result : UInt32 × HandleManager T}
    (probed : probe alive manager ctx manager.slot_size 0 = some result) (fuel : Nat) :
    checkIn alive handle ctx (fuel + 1) manager = .ok result := by
  unfold checkIn
  rw [probed]

theorem checkIn_of_double {new_slot : Nat → Option T}
    (probed : probe alive manager ctx manager.slot_size 0 = none)
    (moved : rehash alive handle manager manager.slot_size 0 (fun _ => none) = .ok new_slot)
    (fuel : Nat) :
    checkIn alive handle ctx (fuel + 1) manager = checkIn alive handle ctx fuel { manager with
      slot := new_slot
      slot_size := manager.slot_size * 2 } := by
  rw [checkIn, probed]
  dsimp only
  rw [moved]

end Rounds

/-- A full table can be doubled, and then has a free slot. -/
theorem Sound.doubles (sound : Sound world) (full : Full world)
    (few : world.living.length < 2 ^ 29) :
    ∃ new_slot, rehash world.alive world.handle world.manager world.manager.slot_size 0
        (fun _ => none) = .ok new_slot ∧
      Rehashed world.handle world.manager world.manager.slot_size new_slot ∧
      Sound (doubled world new_slot) ∧ ¬ Full (doubled world new_slot) := by
  obtain ⟨exponent, size, _⟩ := sound.size
  -- as many objects live as the table has slots
  have counted : world.manager.slot_size ≤ world.living.length := sound.placed.size_le full
  have small : exponent ≤ 28 := by
    rw [size] at counted
    have := (Nat.pow_lt_pow_iff_right (show 1 < 2 by decide)).mp
      (Nat.lt_of_le_of_lt counted few)
    omega
  have fits : world.manager.slot_size ≤ 2 ^ 28 := by
    rw [size]
    exact Nat.pow_le_pow_right (by decide) small
  have nothing : Rehashed world.handle world.manager 0 (fun _ => none) := by
    intro j obj
    constructor
    · intro none
      cases none
    · rintro ⟨k, below, _⟩
      omega
  have stored : ∀ i < world.manager.slot_size, ∀ entry, world.manager.slot i = some entry →
      entry ∈ world.living := by
    intro i below entry isEntry
    obtain ⟨other, alive, isOther⟩ := full i below
    exact Option.some.inj (isOther.symm.trans isEntry) ▸ alive
  obtain ⟨new_slot, moved, rehashed⟩ := rehash_ok sound.placed full size small
    world.manager.slot_size 0 (fun _ => none) (Nat.zero_add _) nothing
  refine ⟨new_slot, moved, rehashed, sound.double fits rehashed, fun fullAgain => ?_⟩
  obtain ⟨free, inside, empty⟩ := sound.placed.exists_free sound.size_pos stored
    fun j entry found => (rehashed j entry).mp found
  obtain ⟨other, _, isOther⟩ := fullAgain free inside
  change new_slot free = some other at isOther
  rw [empty] at isOther
  cases isOther

/-- `checkIn` returns after at most one doubling, and its handle is not that of a living
object. -/
theorem Sound.checkIn_ok (sound : Sound world) (few : world.living.length + 1 < 2 ^ 29) :
    ∃ handle manager,
      (∀ fuel, 2 ≤ fuel → checkIn world.birth.alive world.handle world.created fuel
        world.manager = .ok (handle, manager)) ∧
      (manager.slot_size = world.manager.slot_size ∨
        manager.slot_size = world.manager.slot_size * 2) ∧
      Sound (world.birth.issue world.created handle manager) ∧
      ∀ obj ∈ world.living, world.issued handle ≠ some obj := by
  have born := sound.birth
  have living : world.created ∈ world.birth.living := List.mem_cons_self
  rcases probed : probe world.birth.alive world.manager world.created
      world.manager.slot_size 0 with _ | ⟨handle, manager⟩
  · obtain ⟨new_slot, moved, rehashed, larger, notFull⟩ :=
      born.doubles (born.full_of_probe probed) few
    rcases again : probe world.birth.alive (doubled world.birth new_slot).manager world.created
        (doubled world.birth new_slot).manager.slot_size 0 with _ | ⟨handle, manager⟩
    · exact absurd (larger.full_of_probe again) notFull
    · have absent : Unregistered (doubled world.birth new_slot) world.created := by
        refine ⟨fun j found => ?_, sound.unregistered.issued⟩
        obtain ⟨i, _, isObj, _⟩ := (rehashed j _).mp found
        exact sound.unregistered.slot i isObj
      obtain ⟨same, stored, fresh⟩ := larger.stored absent living again
      refine ⟨handle, manager, ?_, Or.inr same, stored,
        fun obj alive => fresh obj (List.mem_cons_of_mem _ alive)⟩
      intro fuel enough
      obtain ⟨fuel, rfl⟩ := Nat.exists_eq_add_of_le' enough
      exact (checkIn_of_double probed moved (fuel + 1)).trans (checkIn_of_probe again fuel)
  · obtain ⟨same, stored, fresh⟩ := born.stored sound.unregistered living probed
    refine ⟨handle, manager, ?_, Or.inl same, stored,
      fun obj alive => fresh obj (List.mem_cons_of_mem _ alive)⟩
    intro fuel enough
    obtain ⟨fuel, rfl⟩ := Nat.exists_eq_add_of_le' enough
    exact checkIn_of_probe probed (fuel + 1)

/-- A living object is found under a handle exactly when that is its own and in its slot. -/
theorem grab_eq_some {T : Type} {alive : T → Bool} {handle : T → UInt32}
    {manager : HandleManager T} {asked : UInt32} {obj : T} :
    grab alive handle manager asked = some obj ↔
      lockSlot alive manager.slot (HandleManager.hash asked manager.slot_size) = some obj ∧
        handle obj = asked := by
  unfold grab
  cases found : lockSlot alive manager.slot (HandleManager.hash asked manager.slot_size) with
  | none => simp
  | some other => grind

/-- `grab` returns the object to which the handle was issued, while it lives. -/
theorem Sound.grab_eq (sound : Sound world) (asked : UInt32) :
    grab world.alive world.handle world.manager asked =
      (world.issued asked).filter world.alive := by
  apply Option.ext
  intro obj
  rw [grab_eq_some, lockSlot_eq_some, sound.hash_eq, Option.filter_eq_some_iff]
  constructor
  · rintro ⟨⟨found, living⟩, rfl⟩
    exact ⟨sound.slots _ (Nat.mod_lt _ sound.size_pos) obj found (alive_iff.mp living), living⟩
  · rintro ⟨issued, living⟩
    obtain ⟨isHandle, found⟩ := sound.issued asked obj issued (alive_iff.mp living)
    exact ⟨⟨found, living⟩, isHandle⟩

/-! ## `retire` and `retireAll` -/

section Retiring

variable {T : Type} {alive : T → Bool} {handle : T → UInt32}

theorem retire_cases (alive : T → Bool) (handle : T → UInt32) (manager : HandleManager T)
    (asked : UInt32) :
    (∃ obj, lockSlot alive manager.slot (HandleManager.hash asked manager.slot_size) = some obj ∧
      handle obj = asked ∧ retire alive handle manager asked = (true, { manager with
        slot := Function.update manager.slot (HandleManager.hash asked manager.slot_size) none
        nameArray := manager.nameArray.filter fun n => n.handle ≠ asked })) ∨
    ((∀ obj, lockSlot alive manager.slot (HandleManager.hash asked manager.slot_size) = some obj →
      handle obj ≠ asked) ∧ retire alive handle manager asked = (false, manager)) := by
  unfold retire
  dsimp only
  cases found : lockSlot alive manager.slot (HandleManager.hash asked manager.slot_size) with
  | none =>
      right
      refine ⟨fun obj locked => ?_, rfl⟩
      cases locked
  | some obj =>
      by_cases own : handle obj = asked
      · left
        exact ⟨obj, rfl, own, if_pos own⟩
      · right
        refine ⟨fun other locked => ?_, if_neg own⟩
        cases Option.some.inj locked
        exact own

/-- A round that finds no living object with a handle other than 0 changes nothing. -/
theorem retireSlots_idle (count : Nat) : ∀ i (manager : HandleManager T),
    (∀ j, i ≤ j → j < i + count → ∀ obj, lockSlot alive manager.slot j = some obj →
      handle obj = 0) →
    retireSlots alive handle count i manager = (false, manager) := by
  induction count with
  | zero => exact fun _ _ _ => rfl
  | succ count ih =>
      intro i manager idle
      have rest := ih (i + 1) manager fun j least below => idle j (by omega) (by omega)
      unfold retireSlots
      cases found : lockSlot alive manager.slot i with
      | none => exact rest
      | some obj =>
          have reserved := idle i (Nat.le_refl i) (by omega) obj found
          dsimp only
          rw [if_neg (not_not_intro reserved)]
          exact rest

/-- The living objects with a handle other than 0 are gone from `count` slots from `i` on. -/
def Emptied (alive : T → Bool) (handle : T → UInt32) (i count : Nat)
    (before after : HandleManager T) : Prop :=
  after.slot_size = before.slot_size ∧
    ∀ j obj, after.slot j = some obj ↔ before.slot j = some obj ∧
      (alive obj = true → i ≤ j → j < i + count → handle obj = 0)

/-- A slot without an object to retire is passed over. -/
theorem Emptied.pass {i count : Nat} {before after : HandleManager T}
    (rest : Emptied alive handle (i + 1) count before after)
    (here : ∀ obj, lockSlot alive before.slot i = some obj → handle obj = 0) :
    Emptied alive handle i (count + 1) before after := by
  refine ⟨rest.1, fun j obj => (rest.2 j obj).trans (and_congr_right fun found => ?_)⟩
  constructor
  · intro later living least below
    rcases Nat.eq_or_lt_of_le least with rfl | more
    · exact here obj (lockSlot_eq_some.mpr ⟨found, living⟩)
    · exact later living more (by omega)
  · intro later living least below
    exact later living (by omega) (by omega)

/-- The object of a slot is retired. -/
theorem Emptied.retire {i count : Nat} {before emptied after : HandleManager T} {ctx : T}
    (rest : Emptied alive handle (i + 1) count emptied after)
    (size : emptied.slot_size = before.slot_size)
    (taken : emptied.slot = Function.update before.slot i none)
    (found : lockSlot alive before.slot i = some ctx) (retired : handle ctx ≠ 0) :
    Emptied alive handle i (count + 1) before after := by
  obtain ⟨isCtx, alive⟩ := lockSlot_eq_some.mp found
  refine ⟨rest.1.trans size, fun j obj => (rest.2 j obj).trans ?_⟩
  rw [taken, PartialMap.unbind_eq_some_iff]
  constructor
  · rintro ⟨⟨here, isObj⟩, later⟩
    exact ⟨isObj, fun living least below => later living (by omega) (by omega)⟩
  · rintro ⟨isObj, later⟩
    refine ⟨⟨?_, isObj⟩, fun living least below => later living (by omega) (by omega)⟩
    rintro rfl
    cases Option.some.inj (isCtx.symm.trans isObj)
    exact absurd (later alive (Nat.le_refl j) (by omega)) retired

/-- A round takes the living objects with a handle other than 0 out of the slots it visits. -/
theorem retireSlots_emptied (alive : T → Bool) (handle : T → UInt32) (count : Nat) :
    ∀ i (manager : HandleManager T),
    (∀ j obj, lockSlot alive manager.slot j = some obj → i ≤ j → j < i + count →
      HandleManager.hash (handle obj) manager.slot_size = j) →
    Emptied alive handle i count manager (retireSlots alive handle count i manager).2 := by
  induction count with
  | zero =>
      intro i manager _
      refine ⟨rfl, fun j obj => ⟨fun found => ⟨found, fun _ least below => ?_⟩, And.left⟩⟩
      omega
  | succ count ih =>
      intro i manager hashed
      have unvisited := ih (i + 1) manager fun j obj locked least below =>
        hashed j obj locked (by omega) (by omega)
      unfold retireSlots
      cases found : lockSlot alive manager.slot i with
      | none =>
          apply unvisited.pass
          intro obj locked
          rw [found] at locked
          cases locked
      | some ctx =>
          dsimp only
          by_cases reserved : handle ctx = 0
          · rw [if_neg (not_not_intro reserved)]
            apply unvisited.pass
            intro obj locked
            rw [found] at locked
            cases Option.some.inj locked
            exact reserved
          · rw [if_pos reserved]
            have place := hashed i ctx found (Nat.le_refl i) (by omega)
            rcases retire_cases alive handle manager (handle ctx) with
              ⟨other, _, _, retired⟩ | ⟨missed, _⟩
            · rw [retired, place]
              dsimp only
              refine Emptied.retire (ih (i + 1) _ ?_) rfl rfl found reserved
              intro j obj locked least below
              obtain ⟨isObj, living⟩ := lockSlot_eq_some.mp locked
              have old := (PartialMap.unbind_eq_some_iff.mp isObj).2
              exact hashed j obj (lockSlot_eq_some.mpr ⟨old, living⟩) (by omega) (by omega)
            · rw [place] at missed
              exact absurd rfl (missed ctx found)

/-- `retireAll` returns after its second round. -/
theorem retireAll_ok (manager : HandleManager T)
    (hashed : ∀ j < manager.slot_size, ∀ obj, lockSlot alive manager.slot j = some obj →
      HandleManager.hash (handle obj) manager.slot_size = j) {fuel : Nat} (enough : 2 ≤ fuel) :
    retireAll alive handle fuel manager =
      .ok (retireSlots alive handle manager.slot_size 0 manager).2 := by
  obtain ⟨fuel, rfl⟩ := Nat.exists_eq_add_of_le' enough
  obtain ⟨size, slots⟩ := retireSlots_emptied alive handle manager.slot_size 0 manager
    fun j obj locked _ below => hashed j (by omega) obj locked
  unfold retireAll
  rcases round : retireSlots alive handle manager.slot_size 0 manager with ⟨_ | _, cleared⟩
  · rfl
  · rw [round] at size slots
    dsimp only at size slots ⊢
    unfold retireAll
    rw [retireSlots_idle _ _ cleared]
    intro j _ below obj locked
    obtain ⟨found, living⟩ := lockSlot_eq_some.mp locked
    exact ((slots j obj).mp found).2 living (Nat.zero_le j) (by omega)

end Retiring

theorem Sound.residue (sound : Sound world) {i obj : Nat} (inside : i < world.manager.slot_size)
    (found : world.manager.slot i = some obj) (living : obj ∈ world.living) :
    (world.handle obj).toNat % world.manager.slot_size = i :=
  sound.placed i inside obj found living

/-- Slots and issued handles that lose the same living objects. -/
theorem Sound.of_less (sound : Sound world) {manager : HandleManager Nat}
    {issued : UInt32 → Option Nat} (size : manager.slot_size = world.manager.slot_size)
    (slots : ∀ i obj, manager.slot i = some obj → world.manager.slot i = some obj)
    (less : ∀ handle obj, issued handle = some obj → world.issued handle = some obj)
    (keptSlots : ∀ i < world.manager.slot_size, ∀ obj ∈ world.living,
      manager.slot i = some obj → issued (world.handle obj) = some obj)
    (keptHandles : ∀ handle, ∀ obj ∈ world.living, issued handle = some obj →
      manager.slot (handle.toNat % world.manager.slot_size) = some obj) :
    Sound { world with manager, issued } where
  size := by
    dsimp only
    rw [size]
    exact sound.size
  placed := by
    dsimp only
    rw [size]
    exact sound.placed.mono fun i obj found living => ⟨slots i obj found, living⟩
  slots := by
    dsimp only
    rw [size]
    exact fun i inside obj found living => keptSlots i inside obj living found
  issued := by
    dsimp only
    rw [size]
    intro handle obj known living
    exact ⟨(sound.issued handle obj (less handle obj known) living).1,
      keptHandles handle obj living known⟩
  nodup := sound.nodup
  living := sound.living
  known := fun i obj found => sound.known i obj (slots i obj found)
  knownIssued := fun handle obj known => sound.knownIssued handle obj (less handle obj known)

theorem Sound.retire (sound : Sound world) (asked : UInt32) :
    Sound { world with
      manager := (retire world.alive world.handle world.manager asked).2
      issued := Function.update world.issued asked none } := by
  have cases := retire_cases world.alive world.handle world.manager asked
  rw [sound.hash_eq] at cases
  rcases cases with ⟨obj, locked, own, retired⟩ | ⟨missed, retired⟩
  · obtain ⟨found, living⟩ := lockSlot_eq_some.mp locked
    rw [retired]
    apply sound.of_less
    · rfl
    · intro i other isOther
      exact (PartialMap.unbind_eq_some_iff.mp isOther).2
    · intro handle other issued
      exact (PartialMap.unbind_eq_some_iff.mp issued).2
    · intro i inside other alive isOther
      obtain ⟨here, old⟩ := PartialMap.unbind_eq_some_iff.mp isOther
      have place := sound.residue inside old alive
      rw [Function.update_of_ne (fun same => here (by rw [← place, same]))]
      exact sound.slots i inside other old alive
    · intro handle other alive issued
      obtain ⟨different, known⟩ := PartialMap.unbind_eq_some_iff.mp issued
      obtain ⟨isHandle, isOther⟩ := sound.issued handle other known alive
      have elsewhere : handle.toNat % world.manager.slot_size ≠
          asked.toNat % world.manager.slot_size := by
        intro same
        rw [same, found] at isOther
        cases Option.some.inj isOther
        exact different (isHandle.symm.trans own)
      dsimp only
      rw [Function.update_of_ne elsewhere]
      exact isOther
  · rw [retired]
    apply sound.of_less
    · rfl
    · intro _ _ found
      exact found
    · intro handle other issued
      exact (PartialMap.unbind_eq_some_iff.mp issued).2
    · intro i inside other alive isOther
      have place := sound.residue inside isOther alive
      have different : world.handle other ≠ asked := by
        intro same
        rw [same] at place
        exact missed other (lockSlot_eq_some.mpr ⟨place ▸ isOther, alive_iff.mpr alive⟩) same
      rw [Function.update_of_ne different]
      exact sound.slots i inside other isOther alive
    · intro handle other alive issued
      exact (sound.issued handle other (PartialMap.unbind_eq_some_iff.mp issued).2 alive).2

/-- A living object in a slot has the slot's residue. -/
theorem Sound.hashed (sound : Sound world) {i : Nat} (inside : i < world.manager.slot_size)
    {obj : Nat} (locked : lockSlot world.alive world.manager.slot i = some obj) :
    HandleManager.hash (world.handle obj) world.manager.slot_size = i := by
  obtain ⟨found, living⟩ := lockSlot_eq_some.mp locked
  rw [sound.hash_eq]
  exact sound.placed i inside obj found (alive_iff.mp living)

/-- `retireAll` returns, and leaves the living objects whose handle is 0. -/
theorem Sound.retireAll (sound : Sound world) :
    ∃ manager, (∀ fuel, 2 ≤ fuel →
        retireAll world.alive world.handle fuel world.manager = .ok manager) ∧
      Sound { world with
        manager
        issued := Function.update (fun _ => none) 0 (world.issued 0) } := by
  refine ⟨_, fun fuel enough => retireAll_ok world.manager
    (fun j below obj locked => sound.hashed below locked) enough, ?_⟩
  obtain ⟨size, slots⟩ := retireSlots_emptied world.alive world.handle world.manager.slot_size 0
    world.manager fun j obj locked _ below => sound.hashed (by omega) locked
  have less : ∀ (handle : UInt32) obj,
      Function.update (fun _ => none) 0 (world.issued 0) handle = some obj →
        handle = 0 ∧ world.issued 0 = some obj := by
    intro handle obj issued
    by_cases reserved : handle = 0
    · rw [reserved, Function.update_self] at issued
      exact ⟨reserved, issued⟩
    · rw [Function.update_of_ne reserved] at issued
      cases issued
  apply sound.of_less size
  · intro i obj found
    exact ((slots i obj).mp found).1
  · intro handle obj issued
    obtain ⟨rfl, known⟩ := less handle obj issued
    exact known
  · intro i inside obj living found
    obtain ⟨before, later⟩ := (slots i obj).mp found
    have reserved := later (alive_iff.mpr living) (Nat.zero_le i) (by omega)
    have known := sound.slots i inside obj before living
    rw [reserved] at known ⊢
    rw [Function.update_self]
    exact known
  · intro handle obj living issued
    obtain ⟨rfl, known⟩ := less handle obj issued
    obtain ⟨isHandle, found⟩ := sound.issued 0 obj known living
    exact (slots _ obj).mpr ⟨found, fun _ _ _ => isHandle⟩

/-! ## Histories -/

theorem sound_init : Sound machine.init where
  size := ⟨2, rfl, by omega⟩
  placed := fun _ _ _ _ living => by cases living
  slots := fun _ _ _ _ living => by cases living
  issued := fun _ _ _ living => by cases living
  nodup := List.nodup_nil
  living := fun _ living => by cases living
  known := fun _ _ found => by cases found
  knownIssued := fun _ _ issued => by cases issued

/-- Every step keeps the invariant while fewer than 2^29 objects are alive. -/
theorem sound_step (sound : Sound world) {event : Event} (stepped : step world event = some next)
    (few : next.living.length < 2 ^ 29) : Sound next := by
  cases event with
  | checkIn =>
      unfold step at stepped
      dsimp only at stepped
      split at stepped
      case h_1 handle manager returned =>
          cases Option.some.inj stepped
          obtain ⟨same, other, returns, _, stored, _⟩ := sound.checkIn_ok few
          rw [returns 2 (Nat.le_refl 2)] at returned
          cases Except.ok.inj returned
          exact stored
      case h_2 => cases stepped
  | retire asked =>
      cases Option.some.inj stepped
      exact sound.retire asked
  | retireAll =>
      obtain ⟨manager, returns, kept⟩ := sound.retireAll
      unfold step at stepped
      dsimp only at stepped
      rw [returns 2 (Nat.le_refl 2)] at stepped
      cases Option.some.inj stepped
      exact kept
  | grab asked =>
      cases Option.some.inj stepped
      exact sound
  | die obj =>
      unfold step at stepped
      dsimp only at stepped
      split at stepped
      · cases Option.some.inj stepped
        exact sound.die obj
      · cases stepped

/-- What the slot table promises in a state of a history. -/
structure Correct (world : World) : Prop where
  powerOfTwo : ∃ exponent ≤ 29, world.manager.slot_size = 2 ^ exponent
  hashed : ∀ i < world.manager.slot_size, ∀ obj,
    lockSlot world.alive world.manager.slot i = some obj →
      HandleManager.hash (world.handle obj) world.manager.slot_size = i
  /-- Two registrations of living objects with one handle are one. -/
  distinct : ∀ i < world.manager.slot_size, ∀ j < world.manager.slot_size, ∀ first second,
    lockSlot world.alive world.manager.slot i = some first →
      lockSlot world.alive world.manager.slot j = some second →
        world.handle first = world.handle second → i = j ∧ first = second
  /-- `checkIn` returns after at most one doubling, and every registration is still found. -/
  checkedIn : world.living.length + 1 < 2 ^ 29 → ∃ handle manager,
    (∀ fuel, 2 ≤ fuel → checkIn world.birth.alive world.handle world.created fuel
      world.manager = .ok (handle, manager)) ∧
    (manager.slot_size = world.manager.slot_size ∨
      manager.slot_size = world.manager.slot_size * 2) ∧
    grab world.birth.alive (Function.update world.handle world.created handle) manager handle =
      some world.created ∧
    ∀ asked obj, grab world.alive world.handle world.manager asked = some obj →
      grab world.birth.alive (Function.update world.handle world.created handle) manager asked =
        some obj
  retiredAll : ∃ manager, ∀ fuel, 2 ≤ fuel →
    retireAll world.alive world.handle fuel world.manager = .ok manager
  grabbed : ∀ asked, grab world.alive world.handle world.manager asked =
    (world.issued asked).filter world.alive

theorem Sound.correct (sound : Sound world) : Correct world where
  powerOfTwo := by
    obtain ⟨exponent, size, small⟩ := sound.size
    exact ⟨exponent, small, size⟩
  hashed := fun i inside obj locked => sound.hashed inside locked
  distinct := by
    intro i insideFirst j insideSecond first second isFirst isSecond same
    have left := sound.hashed insideFirst isFirst
    rw [same, sound.hashed insideSecond isSecond] at left
    subst left
    exact ⟨rfl, Option.some.inj (isFirst.symm.trans isSecond)⟩
  checkedIn := by
    intro few
    obtain ⟨handle, manager, returns, size, stored, fresh⟩ := sound.checkIn_ok few
    refine ⟨handle, manager, returns, size, ?_, fun asked obj found => ?_⟩
    · refine (stored.grab_eq handle).trans ?_
      dsimp only [World.issue]
      rw [Function.update_self, Option.filter_some, if_pos]
      exact alive_iff.mpr List.mem_cons_self
    · rw [sound.grab_eq, Option.filter_eq_some_iff] at found
      obtain ⟨issued, living⟩ := found
      refine (stored.grab_eq asked).trans ?_
      have other : asked ≠ handle := by
        rintro rfl
        exact fresh obj (alive_iff.mp living) issued
      dsimp only [World.issue]
      rw [Function.update_of_ne other, Option.filter_eq_some_iff]
      exact ⟨issued, alive_iff.mpr (List.mem_cons_of_mem _ (alive_iff.mp living))⟩
  retiredAll := by
    obtain ⟨manager, returns, _⟩ := sound.retireAll
    exact ⟨manager, returns⟩
  grabbed := sound.grab_eq

/-- **The slot table is correct** in every state of a history in which fewer than 2^29 objects
are alive at once. -/
theorem correct_of_run (events : List Event) (world : World) (ran : machine.run events = some world)
    (few : ∀ first, first <+: events → ∀ reached, machine.run first = some reached →
      reached.living.length < 2 ^ 29) : Correct world := by
  refine Sound.correct (machine.run_invariant_of_guarded
    (fun state event => ∀ next, machine.step state event = some next →
      next.living.length < 2 ^ 29)
    Sound sound_init (fun _ _ next sound guarded stepped =>
      sound_step sound stepped (guarded next stepped)) events world ?_ ran)
  rw [machine.guarded_iff]
  rintro first event second rfl reached before next stepped
  apply few (first ++ [event]) ⟨second, by rw [List.append_assoc]; rfl⟩
  rw [machine.run_concat]
  exact Option.bind_eq_some_iff.mpr ⟨reached, before, stepped⟩

theorem length_step {event : Event} (stepped : step world event = some next) :
    next.living.length ≤ world.living.length + 1 := by
  unfold step at stepped
  cases event with
  | checkIn =>
      dsimp only at stepped
      split at stepped
      · cases Option.some.inj stepped
        exact Nat.le_refl _
      · cases stepped
  | retire asked =>
      cases Option.some.inj stepped
      exact Nat.le_succ _
  | retireAll =>
      dsimp only at stepped
      split at stepped
      · cases Option.some.inj stepped
        exact Nat.le_succ _
      · cases stepped
  | grab asked =>
      cases Option.some.inj stepped
      exact Nat.le_succ _
  | die obj =>
      dsimp only at stepped
      split at stepped
      · cases Option.some.inj stepped
        exact Nat.le_succ_of_le List.length_erase_le
      · cases stepped

/-- No more objects live than there were events. -/
theorem length_run (events : List Event) :
    ∀ world, machine.run events = some world → world.living.length ≤ events.length :=
  machine.run_history_invariant (fun events world => world.living.length ≤ events.length)
    (Nat.le_refl 0) (fun events world event next bound stepped => by
      rw [List.length_append]
      exact Nat.le_trans (length_step stepped) (Nat.succ_le_succ bound)) events

/-- The second object dies, the fifth takes its slot, and the sixth doubles the table. -/
theorem correct_of_run_doubled : ∃ world,
    machine.run [.checkIn, .checkIn, .checkIn, .checkIn, .die 1, .checkIn, .checkIn, .retire 3] =
      some world ∧ world.manager.slot_size = 8 ∧ Correct world := by
  have observed : (machine.run [.checkIn, .checkIn, .checkIn, .checkIn, .die 1, .checkIn,
      .checkIn, .retire 3]).map (fun world => world.manager.slot_size) = some 8 := by rfl
  obtain ⟨world, ran, size⟩ := Option.map_eq_some_iff.mp observed
  refine ⟨world, ran, size, correct_of_run _ world ran fun first before reached isReached => ?_⟩
  exact Nat.lt_of_le_of_lt (Nat.le_trans (length_run first reached isReached) before.length_le)
    (by decide)

end SlotTable

end EasyLua
