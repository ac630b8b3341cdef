import EasyLua.Registry.SlotTable
import Mathlib.Data.Finset.Card

/-!
# Where the handle manager puts an object

`checkIn`, `retire` and `retireAll` of `handleManager.h` for objects of which `handle()` may
return anything. `checkIn` counts up from `handle_index` to the first number with a free slot, and
moves the objects of a full table to the slots of what their `handle()` returns.
-/

namespace EasyLua

namespace Placement

open HandleManager

section CheckIn

variable {T : Type} {alive : T → Bool} {handle : T → UInt32} {manager next : HandleManager T}
  {ctx : T}

/-- The slot holds a living object. -/
def Taken (alive : T → Bool) (slot : Nat → Option T) (i : Nat) : Prop :=
  ∃ ctx, lockSlot alive slot i = some ctx

/-- Every slot is taken. -/
def Full (alive : T → Bool) (manager : HandleManager T) : Prop :=
  ∀ i < manager.slot_size, Taken alive manager.slot i

/-- The slot of the table of twice the size gets a living object. -/
def Moved (alive : T → Bool) (handle : T → UInt32) (manager : HandleManager T) (j : Nat) : Prop :=
  ∃ i < manager.slot_size, ∃ ctx, lockSlot alive manager.slot i = some ctx ∧
    HandleManager.hash (handle ctx) (manager.slot_size * 2) = j

/-- Counting up from an index, the number is the first one with a free slot. -/
def FirstFree (taken : Nat → Prop) (size : Nat) (index number : UInt32) : Prop :=
  ∃ i < size, number = UInt32.ofNat i + index ∧ ¬ taken (HandleManager.hash number size) ∧
    ∀ j < i, taken (HandleManager.hash (UInt32.ofNat j + index) size)

/-- The number is the first one with a free slot, in the table or in its double when the table is
full. -/
def NextFree (alive : T → Bool) (handle : T → UInt32) (manager : HandleManager T)
    (number : UInt32) : Prop :=
  FirstFree (Taken alive manager.slot) manager.slot_size manager.handle_index number ∨
    (Full alive manager ∧
      FirstFree (Moved alive handle manager) (manager.slot_size * 2) manager.handle_index number)

theorem FirstFree.unique {taken : Nat → Prop} {size : Nat} {index first second : UInt32}
    (isFirst : FirstFree taken size index first) (isSecond : FirstFree taken size index second) :
    first = second := by
  obtain ⟨i, _, rfl, freeFirst, takenFirst⟩ := isFirst
  obtain ⟨j, _, rfl, freeSecond, takenSecond⟩ := isSecond
  rcases Nat.lt_trichotomy i j with below | rfl | above
  · exact absurd (takenSecond i below) freeFirst
  · rfl
  · exact absurd (takenFirst j above) freeSecond

theorem FirstFree.congr {taken other : Nat → Prop} {size : Nat} {index number : UInt32}
    (same : ∀ i, taken i ↔ other i) (isFirst : FirstFree taken size index number) :
    FirstFree other size index number := by
  obtain ⟨i, below, isNumber, free, before⟩ := isFirst
  exact ⟨i, below, isNumber, fun found => free ((same _).mpr found),
    fun j earlier => (same _).mp (before j earlier)⟩

theorem lockSlot_none_iff {slot : Nat → Option T} {i : Nat} :
    lockSlot alive slot i = none ↔ ¬ Taken alive slot i := by
  unfold Taken
  rw [Option.eq_none_iff_forall_ne_some, not_exists]

/-- What the first loop stores, it stores under the first number with a free slot. -/
theorem probe_first (alive : T → Bool) (manager : HandleManager T) (ctx : T) (count : Nat) :
    ∀ i result, probe alive manager ctx count i = some result →
      ∃ j, i ≤ j ∧ j < i + count ∧ result.1 = UInt32.ofNat j + manager.handle_index ∧
        ¬ Taken alive manager.slot (HandleManager.hash result.1 manager.slot_size) ∧
        (∀ k, i ≤ k → k < j → Taken alive manager.slot
          (HandleManager.hash (UInt32.ofNat k + manager.handle_index) manager.slot_size)) ∧
        result.2 = { manager with
          slot := Function.update manager.slot (HandleManager.hash result.1 manager.slot_size)
            (some ctx)
          handle_index := result.1 + 1 } := by
  induction count with
  | zero =>
      intro i result found
      cases found
  | succ count ih =>
      intro i result found
      unfold probe at found
      dsimp only at found
      by_cases free : lockSlot alive manager.slot (HandleManager.hash
          (UInt32.ofNat i + manager.handle_index) manager.slot_size) = none
      · rw [if_pos (Option.isNone_iff_eq_none.mpr free)] at found
        cases Option.some.inj found
        refine ⟨i, Nat.le_refl i, by omega, rfl, lockSlot_none_iff.mp free, ?_, rfl⟩
        intro k least below
        omega
      · rw [if_neg (fun empty => free (Option.isNone_iff_eq_none.mp empty))] at found
        obtain ⟨j, least, below, isHandle, isFree, taken, stored⟩ := ih (i + 1) result found
        refine ⟨j, by omega, by omega, isHandle, isFree, fun k from_i to_j => ?_, stored⟩
        rcases Nat.eq_or_lt_of_le from_i with rfl | later
        · exact not_not.mp fun notTaken => free (lockSlot_none_iff.mpr notTaken)
        · exact taken k later to_j

/-- The first loop stores the object under the first number with a free slot, or finds every slot
of a table taken. -/
theorem probe_spec (alive : T → Bool) (ctx : T) {exponent : Nat}
    (size : manager.slot_size = 2 ^ exponent)
    (small : exponent ≤ 31) :
    (probe alive manager ctx manager.slot_size 0 = none ∧ Full alive manager) ∨
    ∃ number, FirstFree (Taken alive manager.slot) manager.slot_size manager.handle_index number ∧
      probe alive manager ctx manager.slot_size 0 = some (number, { manager with
        slot := Function.update manager.slot (HandleManager.hash number manager.slot_size)
          (some ctx)
        handle_index := number + 1 }) := by
  cases probed : probe alive manager ctx manager.slot_size 0 with
  | none =>
      left
      refine ⟨rfl, fun i inside => ?_⟩
      rcases SlotTable.probe_cases alive manager ctx manager.slot_size 0 with
        ⟨_, taken⟩ | ⟨_, _, found⟩
      · obtain ⟨j, below, visits⟩ :=
          SlotTable.exists_probe small manager.handle_index (size ▸ inside)
        have locked := taken j (Nat.zero_le j) (by rw [Nat.zero_add, size]; exact below)
        rw [size, visits] at locked
        exact Option.ne_none_iff_exists'.mp locked
      · rw [probed] at found
        cases found
  | some result =>
      right
      obtain ⟨j, _, below, isNumber, free, taken, stored⟩ :=
        probe_first alive manager ctx manager.slot_size 0 result probed
      refine ⟨result.1, ⟨j, by omega, isNumber, free, fun k before => ?_⟩, ?_⟩
      · exact taken k (Nat.zero_le k) before
      · rw [← stored]

/-- The slots of the first `i` rounds of the second loop; no two objects got the same. -/
structure Rehashed (handle : T → UInt32) (manager : HandleManager T) (i : Nat)
    (new_slot : Nat → Option T) : Prop where
  slots : ∀ j ctx, new_slot j = some ctx ↔ ∃ k < i, manager.slot k = some ctx ∧
    HandleManager.hash (handle ctx) (manager.slot_size * 2) = j
  apart : ∀ k < i, ∀ l < i, ∀ first second, manager.slot k = some first →
    manager.slot l = some second →
    HandleManager.hash (handle first) (manager.slot_size * 2) =
      HandleManager.hash (handle second) (manager.slot_size * 2) → k = l

theorem Rehashed.congr {other : T → UInt32} {count : Nat} {new_slot : Nat → Option T}
    (same : ∀ i ctx, manager.slot i = some ctx → other ctx = handle ctx)
    (rehashed : Rehashed handle manager count new_slot) :
    Rehashed other manager count new_slot where
  slots := by
    intro j ctx
    rw [rehashed.slots j ctx]
    refine exists_congr fun k => and_congr_right fun _ => and_congr_right fun found => ?_
    rw [same k ctx found]
  apart := by
    intro k below l belowSecond first second isFirst isSecond equal
    rw [same k first isFirst, same l second isSecond] at equal
    exact rehashed.apart k below l belowSecond first second isFirst isSecond equal

theorem rehashed_zero : Rehashed handle manager 0 fun _ => none where
  slots := by
    intro j ctx
    constructor
    · intro found
      cases found
    · rintro ⟨k, below, _⟩
      exact absurd below (Nat.not_lt_zero k)
  apart := fun k below => absurd below (Nat.not_lt_zero k)

/-- One more object in a new slot that was free. -/
theorem Rehashed.round {i : Nat} {new_slot : Nat → Option T}
    (rehashed : Rehashed handle manager i new_slot) (found : manager.slot i = some ctx)
    (free : new_slot (HandleManager.hash (handle ctx) (manager.slot_size * 2)) = none) :
    Rehashed handle manager (i + 1) (Function.update new_slot
      (HandleManager.hash (handle ctx) (manager.slot_size * 2)) (some ctx)) := by
  have different : ∀ k < i, ∀ other, manager.slot k = some other →
      HandleManager.hash (handle other) (manager.slot_size * 2) ≠
        HandleManager.hash (handle ctx) (manager.slot_size * 2) := by
    intro k below other isOther same
    rw [← same, (rehashed.slots _ other).mpr ⟨k, below, isOther, rfl⟩] at free
    cases free
  constructor
  · intro j other
    rw [PartialMap.bind_eq_some_iff, rehashed.slots j other]
    constructor
    · rintro (⟨rfl, rfl⟩ | ⟨_, k, below, rest⟩)
      · exact ⟨i, Nat.lt_succ_self i, found, rfl⟩
      · exact ⟨k, Nat.lt_succ_of_lt below, rest⟩
    · rintro ⟨k, below, isOther, rfl⟩
      rcases Nat.lt_succ_iff_lt_or_eq.mp below with earlier | rfl
      · exact Or.inr ⟨different k earlier other isOther, k, earlier, isOther, rfl⟩
      · cases Option.some.inj (found.symm.trans isOther)
        exact Or.inl ⟨rfl, rfl⟩
  · intro k belowFirst l belowSecond first second isFirst isSecond same
    rcases Nat.lt_succ_iff_lt_or_eq.mp belowFirst with earlierFirst | rfl <;>
      rcases Nat.lt_succ_iff_lt_or_eq.mp belowSecond with earlierSecond | rfl
    · exact rehashed.apart k earlierFirst l earlierSecond first second isFirst isSecond same
    · cases Option.some.inj (found.symm.trans isSecond)
      exact absurd same (different k earlierFirst first isFirst)
    · cases Option.some.inj (found.symm.trans isFirst)
      exact absurd same.symm (different l earlierSecond second isSecond)
    · rfl

/-- When the second loop does not fail, it has moved a full table, each object to a slot of its
own. -/
theorem rehash_spec (alive : T → Bool) {doubled : Nat → Option T} (count : Nat) : ∀ i new_slot,
    i + count = manager.slot_size → Rehashed handle manager i new_slot →
    (∀ k < i, Taken alive manager.slot k) →
    rehash alive handle manager count i new_slot = .ok doubled →
      Rehashed handle manager manager.slot_size doubled ∧ Full alive manager := by
  induction count with
  | zero =>
      intro i new_slot done rehashed taken moved
      cases Except.ok.inj moved
      rw [Nat.add_zero] at done
      exact ⟨done ▸ rehashed, fun k below => taken k (done ▸ below)⟩
  | succ count ih =>
      intro i new_slot left rehashed taken moved
      unfold rehash at moved
      cases locked : lockSlot alive manager.slot i with
      | none =>
          rw [locked] at moved
          cases moved
      | some ctx =>
          rw [locked] at moved
          dsimp only at moved
          obtain ⟨found, _⟩ := SlotTable.lockSlot_eq_some.mp locked
          by_cases occupied : (lockSlot alive new_slot (HandleManager.hash (handle ctx)
              (manager.slot_size * 2))).isSome = true
          · rw [if_pos occupied] at moved
            cases moved
          · rw [if_neg occupied] at moved
            -- what is in a new slot is alive, so that a slot that does not lock is empty
            have free : new_slot (HandleManager.hash (handle ctx) (manager.slot_size * 2)) =
                none := by
              rw [Option.eq_none_iff_forall_ne_some]
              intro other isOther
              obtain ⟨k, below, isEntry, _⟩ := (rehashed.slots _ other).mp isOther
              obtain ⟨entry, isTaken⟩ := taken k below
              obtain ⟨same, living⟩ := SlotTable.lockSlot_eq_some.mp isTaken
              cases Option.some.inj (isEntry.symm.trans same)
              rw [SlotTable.lockSlot_eq_some.mpr ⟨isOther, living⟩] at occupied
              exact occupied rfl
            rw [found] at moved
            refine ih (i + 1) _ (by omega) (rehashed.round found free) (fun k below => ?_) moved
            rcases Nat.lt_succ_iff_lt_or_eq.mp below with earlier | rfl
            · exact taken k earlier
            · exact ⟨ctx, locked⟩

/-- The objects of a full table get slots of their own when each was in the slot of its
`handle()`. -/
theorem rehash_returns {exponent : Nat} (size : manager.slot_size = 2 ^ exponent)
    (small : exponent ≤ 30) (full : Full alive manager)
    (placed : ∀ i < manager.slot_size, ∀ ctx, manager.slot i = some ctx →
      HandleManager.hash (handle ctx) manager.slot_size = i) (count : Nat) : ∀ i new_slot,
    i + count = manager.slot_size → Rehashed handle manager i new_slot →
    ∃ doubled, rehash alive handle manager count i new_slot = .ok doubled := by
  have residue : ∀ number, HandleManager.hash number (manager.slot_size * 2) %
      manager.slot_size = HandleManager.hash number manager.slot_size := by
    intro number
    rw [size, ← Nat.pow_succ, SlotTable.hash_eq (by omega), SlotTable.hash_eq (by omega)]
    exact Nat.mod_mod_of_dvd _ (Nat.pow_dvd_pow 2 (Nat.le_succ exponent))
  induction count with
  | zero => exact fun i new_slot _ _ => ⟨new_slot, rfl⟩
  | succ count ih =>
      intro i new_slot left rehashed
      obtain ⟨ctx, locked⟩ := full i (by omega)
      obtain ⟨found, _⟩ := SlotTable.lockSlot_eq_some.mp locked
      have free : new_slot (HandleManager.hash (handle ctx) (manager.slot_size * 2)) = none := by
        rw [Option.eq_none_iff_forall_ne_some]
        intro other isOther
        obtain ⟨k, below, isEntry, same⟩ := (rehashed.slots _ other).mp isOther
        have residues := congrArg (· % manager.slot_size) same
        rw [residue, residue, placed k (by omega) other isEntry,
          placed i (by omega) ctx found] at residues
        omega
      have unlocked : lockSlot alive new_slot
          (HandleManager.hash (handle ctx) (manager.slot_size * 2)) = none := by
        unfold lockSlot
        rw [free]
        rfl
      obtain ⟨doubled, moved⟩ := ih (i + 1) _ (by omega) (rehashed.round found free)
      refine ⟨doubled, ?_⟩
      unfold rehash
      rw [locked]
      dsimp only
      rw [unlocked, found]
      exact moved

theorem rehash_fuel (count : Nat) : ∀ i new_slot,
    rehash alive handle manager count i new_slot ≠ .error .outOfFuel := by
  induction count with
  | zero =>
      intro i new_slot failed
      cases failed
  | succ count ih =>
      intro i new_slot
      unfold rehash
      cases lockSlot alive manager.slot i with
      | none => exact fun failed => by cases failed
      | some ctx =>
          dsimp only
          split
          · exact fun failed => by cases failed
          · exact ih (i + 1) _

/-- The taken slots of the new table. -/
theorem Rehashed.taken_iff {new_slot : Nat → Option T}
    (rehashed : Rehashed handle manager manager.slot_size new_slot) (j : Nat) :
    Taken alive new_slot j ↔ Moved alive handle manager j := by
  constructor
  · rintro ⟨ctx, locked⟩
    obtain ⟨found, living⟩ := SlotTable.lockSlot_eq_some.mp locked
    obtain ⟨i, below, isEntry, place⟩ := (rehashed.slots j ctx).mp found
    exact ⟨i, below, ctx, SlotTable.lockSlot_eq_some.mpr ⟨isEntry, living⟩, place⟩
  · rintro ⟨i, below, ctx, locked, place⟩
    obtain ⟨found, living⟩ := SlotTable.lockSlot_eq_some.mp locked
    exact ⟨ctx, SlotTable.lockSlot_eq_some.mpr
      ⟨(rehashed.slots j ctx).mpr ⟨i, below, found, place⟩, living⟩⟩

/-- The manager after a doubling. -/
def double (manager : HandleManager T) (new_slot : Nat → Option T) : HandleManager T :=
  { manager with
    slot := new_slot
    slot_size := manager.slot_size * 2 }

/-- The manager after the object was stored. -/
def store (manager : HandleManager T) (ctx : T) (number : UInt32) : HandleManager T :=
  { manager with
    slot := Function.update manager.slot (HandleManager.hash number manager.slot_size) (some ctx)
    handle_index := number + 1 }

/-- The new table is not full. -/
theorem Rehashed.not_full {new_slot : Nat → Option T}
    (rehashed : Rehashed handle manager manager.slot_size new_slot)
    (positive : 0 < manager.slot_size) : ¬ Full alive (double manager new_slot) := by
  intro full
  obtain ⟨j, inside, empty⟩ := Probing.exists_free_of_moved
    (show manager.slot_size < manager.slot_size * 2 by omega)
    fun j ctx found => (rehashed.slots j ctx).mp found
  obtain ⟨ctx, locked⟩ := full j inside
  obtain ⟨found, _⟩ := SlotTable.lockSlot_eq_some.mp locked
  change new_slot j = some ctx at found
  rw [empty] at found
  cases found

variable {exponent : Nat}

/-- The second round of `checkIn` stores the object in the new table. -/
theorem probe_double (alive : T → Bool) (ctx : T)
    (size : manager.slot_size = 2 ^ exponent) (small : exponent ≤ 30)
    {new_slot : Nat → Option T} (rehashed : Rehashed handle manager manager.slot_size new_slot) :
    ∃ number, FirstFree (Moved alive handle manager) (manager.slot_size * 2)
        manager.handle_index number ∧
      probe alive (double manager new_slot) ctx (manager.slot_size * 2) 0 =
        some (number, store (double manager new_slot) ctx number) := by
  have larger : (double manager new_slot).slot_size = 2 ^ (exponent + 1) := by
    rw [Nat.pow_succ, ← size]
    rfl
  have positive : 0 < manager.slot_size := by
    rw [size]
    exact Nat.two_pow_pos exponent
  rcases probe_spec alive ctx larger (by omega) with
    ⟨_, full⟩ | ⟨number, isFirst, probed⟩
  · exact absurd full (rehashed.not_full positive)
  · refine ⟨number, ?_, probed⟩
    obtain ⟨i, below, isNumber, free, taken⟩ := isFirst
    refine ⟨i, below, isNumber, ?_, fun j before => ?_⟩
    · rw [← rehashed.taken_iff]
      exact free
    · rw [← rehashed.taken_iff]
      exact taken j before

/-- What `checkIn` does when it returns: it stores the object under the first number with a free
slot, in the table or in its double. -/
theorem checkIn_spec (size : manager.slot_size = 2 ^ exponent) (small : exponent ≤ 30) {fuel : Nat}
    {number : UInt32} (returned : checkIn alive handle ctx fuel manager = .ok (number, next)) :
    (FirstFree (Taken alive manager.slot) manager.slot_size manager.handle_index number ∧
      next = store manager ctx number) ∨
    (Full alive manager ∧
      FirstFree (Moved alive handle manager) (manager.slot_size * 2) manager.handle_index number ∧
      ∃ new_slot, Rehashed handle manager manager.slot_size new_slot ∧
        next = store (double manager new_slot) ctx number) := by
  cases fuel with
  | zero => cases returned
  | succ fuel =>
      rcases probe_spec alive ctx size (by omega) with
        ⟨missed, full⟩ | ⟨first, isFirst, probed⟩
      · right
        cases moved : rehash alive handle manager manager.slot_size 0 fun _ => none with
        | error failure =>
            unfold checkIn at returned
            rw [missed] at returned
            dsimp only at returned
            rw [moved] at returned
            cases returned
        | ok new_slot =>
            rw [SlotTable.checkIn_of_double missed moved] at returned
            obtain ⟨rehashed, _⟩ := rehash_spec alive manager.slot_size 0 (fun _ => none)
              (Nat.zero_add _) rehashed_zero (fun k below => absurd below (Nat.not_lt_zero k)) moved
            obtain ⟨second, isSecond, probed⟩ :=
              probe_double alive ctx size small rehashed
            cases fuel with
            | zero => cases returned
            | succ fuel =>
                have again : checkIn alive handle ctx (fuel + 1) (double manager new_slot) =
                    .ok (second, store (double manager new_slot) ctx second) :=
                  SlotTable.checkIn_of_probe probed fuel
                change checkIn alive handle ctx (fuel + 1) (double manager new_slot) = _ at returned
                rw [again] at returned
                obtain ⟨rfl, rfl⟩ := Prod.mk.inj (Except.ok.inj returned)
                exact ⟨full, isSecond, new_slot, rehashed, rfl⟩
      · left
        rw [SlotTable.checkIn_of_probe probed fuel] at returned
        obtain ⟨rfl, rfl⟩ := Prod.mk.inj (Except.ok.inj returned)
        exact ⟨isFirst, rfl⟩

theorem hash_lt (size : manager.slot_size = 2 ^ exponent) (small : exponent ≤ 31)
    (number : UInt32) : HandleManager.hash number manager.slot_size < manager.slot_size := by
  rw [size, SlotTable.hash_eq (Nat.lt_succ_of_le small)]
  exact Nat.mod_lt _ (Nat.two_pow_pos exponent)

/-- A full table is doubled when each object was in the slot of its `handle()`. -/
theorem checkIn_full (size : manager.slot_size = 2 ^ exponent) (small : exponent ≤ 30)
    (full : Full alive manager)
    (placed : ∀ i < manager.slot_size, ∀ ctx, manager.slot i = some ctx →
      HandleManager.hash (handle ctx) manager.slot_size = i) (ctx : T) :
    ∃ number new_slot, checkIn alive handle ctx 2 manager =
      .ok (number, store (double manager new_slot) ctx number) := by
  obtain ⟨new_slot, moved⟩ := rehash_returns size small full placed manager.slot_size 0
    (fun _ => none) (Nat.zero_add _) rehashed_zero
  obtain ⟨rehashed, _⟩ := rehash_spec alive manager.slot_size 0 (fun _ => none)
    (Nat.zero_add _) rehashed_zero (fun k below => absurd below (Nat.not_lt_zero k)) moved
  obtain ⟨number, _, probed⟩ := probe_double alive ctx size small rehashed
  have missed : probe alive manager ctx manager.slot_size 0 = none := by
    rcases probe_spec alive ctx size (by omega) with
      ⟨missed, _⟩ | ⟨_, ⟨_, _, _, free, _⟩, _⟩
    · exact missed
    · exact absurd (full _ (hash_lt size (by omega) _)) free
  exact ⟨number, new_slot,
    (SlotTable.checkIn_of_double missed moved 1).trans (SlotTable.checkIn_of_probe probed 0)⟩

/-- At most one number is next. -/
theorem NextFree.unique (size : manager.slot_size = 2 ^ exponent) (small : exponent ≤ 31)
    {first second : UInt32} (isFirst : NextFree alive handle manager first)
    (isSecond : NextFree alive handle manager second) : first = second := by
  have notFull : ∀ number, FirstFree (Taken alive manager.slot) manager.slot_size
      manager.handle_index number → ¬ Full alive manager := by
    intro number ⟨_, _, _, free, _⟩ full
    exact free (full _ (hash_lt size small number))
  rcases isFirst with here | ⟨full, doubled⟩ <;>
    rcases isSecond with there | ⟨fullAgain, doubledAgain⟩
  · exact here.unique there
  · exact absurd fullAgain (notFull first here)
  · exact absurd full (notFull second there)
  · exact doubled.unique doubledAgain

/-- The handle that `checkIn` returns. -/
theorem checkIn_nextFree (size : manager.slot_size = 2 ^ exponent) (small : exponent ≤ 30)
    {fuel : Nat} {number : UInt32}
    (returned : checkIn alive handle ctx fuel manager = .ok (number, next)) :
    NextFree alive handle manager number := by
  rcases checkIn_spec size small returned with ⟨isFirst, _⟩ | ⟨full, isFirst, _⟩
  · exact Or.inl isFirst
  · exact Or.inr ⟨full, isFirst⟩

/-- Two rounds of `checkIn` suffice, for whatever reason it ends. -/
theorem checkIn_fuel (size : manager.slot_size = 2 ^ exponent) (small : exponent ≤ 30) :
    checkIn alive handle ctx 2 manager ≠ .error .outOfFuel := by
  rcases probe_spec alive ctx size (by omega) with
    ⟨missed, _⟩ | ⟨first, _, probed⟩
  · cases moved : rehash alive handle manager manager.slot_size 0 fun _ => none with
    | error failure =>
        have other : failure ≠ .outOfFuel := by
          rintro rfl
          exact rehash_fuel manager.slot_size 0 (fun _ => none) moved
        unfold checkIn
        rw [missed]
        dsimp only
        rw [moved]
        intro same
        exact other (Except.error.inj same)
    | ok new_slot =>
        rw [SlotTable.checkIn_of_double missed moved]
        obtain ⟨rehashed, _⟩ := rehash_spec alive manager.slot_size 0 (fun _ => none)
          (Nat.zero_add _) rehashed_zero (fun k below => absurd below (Nat.not_lt_zero k)) moved
        obtain ⟨second, _, probed⟩ := probe_double alive ctx size small rehashed
        have again : checkIn alive handle ctx 1 (double manager new_slot) =
            .ok (second, store (double manager new_slot) ctx second) :=
          SlotTable.checkIn_of_probe probed 0
        change checkIn alive handle ctx 1 (double manager new_slot) ≠ _
        rw [again]
        exact fun failed => by cases failed
  · rw [SlotTable.checkIn_of_probe probed 1]
    exact fun failed => by cases failed

end CheckIn

/-! ## `retire` and `retireAll` -/

section Retire

variable {T : Type} {alive : T → Bool} {handle : T → UInt32} {manager next : HandleManager T}

/-- A manager from which registrations and names were taken. -/
structure Less (next manager : HandleManager T) : Prop where
  handle_index : next.handle_index = manager.handle_index
  slot_size : next.slot_size = manager.slot_size
  slots : ∀ i ctx, next.slot i = some ctx → manager.slot i = some ctx
  name_cap : next.name_cap = manager.name_cap
  names : next.nameArray.Sublist manager.nameArray

theorem Less.refl (manager : HandleManager T) : Less manager manager where
  handle_index := rfl
  slot_size := rfl
  slots := fun _ _ found => found
  name_cap := rfl
  names := List.Sublist.refl _

theorem Less.trans {first second third : HandleManager T} (left : Less first second)
    (right : Less second third) : Less first third where
  handle_index := left.handle_index.trans right.handle_index
  slot_size := left.slot_size.trans right.slot_size
  slots := fun i ctx found => right.slots i ctx (left.slots i ctx found)
  name_cap := left.name_cap.trans right.name_cap
  names := left.names.trans right.names

theorem retire_less (alive : T → Bool) (handle : T → UInt32) (manager : HandleManager T)
    (asked : UInt32) : Less (retire alive handle manager asked).2 manager := by
  rcases SlotTable.retire_cases alive handle manager asked with ⟨obj, _, _, retired⟩ | ⟨_, retired⟩
  · rw [retired]
    refine ⟨rfl, rfl, fun i ctx found => ?_, rfl, List.filter_sublist⟩
    exact (PartialMap.unbind_eq_some_iff.mp found).2
  · rw [retired]
    exact Less.refl manager

/-- `retire` returns 1 when the slot holds a living object of this handle. -/
theorem retire_iff {asked : UInt32} :
    (retire alive handle manager asked).1 = true ↔
      ∃ ctx, lockSlot alive manager.slot (HandleManager.hash asked manager.slot_size) = some ctx ∧
        handle ctx = asked := by
  rcases SlotTable.retire_cases alive handle manager asked with
    ⟨obj, locked, own, retired⟩ | ⟨missed, retired⟩
  · rw [retired]
    exact ⟨fun _ => ⟨obj, locked, own⟩, fun _ => rfl⟩
  · rw [retired]
    constructor
    · intro failed
      cases failed
    · rintro ⟨ctx, locked, own⟩
      exact absurd own (missed ctx locked)

/-- An object with another handle stays in its slot. -/
theorem retire_kept (alive : T → Bool) {asked : UInt32} {i : Nat} {ctx : T}
    (found : manager.slot i = some ctx) (other : handle ctx ≠ asked) :
    (retire alive handle manager asked).2.slot i = some ctx := by
  rcases SlotTable.retire_cases alive handle manager asked with
    ⟨obj, locked, own, retired⟩ | ⟨_, retired⟩
  · rw [retired]
    dsimp only
    rw [Function.update_of_ne]
    · exact found
    · rintro rfl
      obtain ⟨isObj, _⟩ := SlotTable.lockSlot_eq_some.mp locked
      cases Option.some.inj (isObj.symm.trans found)
      exact other own
  · rw [retired]
    exact found

/-- The number of slots that hold anything. -/
def occupied (manager : HandleManager T) : Nat :=
  ((Finset.range manager.slot_size).filter fun i => (manager.slot i).isSome).card

theorem Less.occupied_le (less : Less next manager) : occupied next ≤ occupied manager := by
  apply Finset.card_le_card
  intro i member
  obtain ⟨inside, isSome⟩ := Finset.mem_filter.mp member
  obtain ⟨ctx, found⟩ := Option.isSome_iff_exists.mp isSome
  rw [less.slot_size] at inside
  exact Finset.mem_filter.mpr ⟨inside, Option.isSome_of_eq_some (less.slots i ctx found)⟩

variable {exponent : Nat}

/-- A retirement frees a slot. -/
theorem occupied_retire (size : manager.slot_size = 2 ^ exponent) (small : exponent ≤ 31)
    {asked : UInt32} (succeeded : (retire alive handle manager asked).1 = true) :
    occupied (retire alive handle manager asked).2 < occupied manager := by
  rcases SlotTable.retire_cases alive handle manager asked with
    ⟨obj, locked, _, retired⟩ | ⟨_, retired⟩
  · rw [retired]
    obtain ⟨found, _⟩ := SlotTable.lockSlot_eq_some.mp locked
    have inside := hash_lt size small asked
    apply Finset.card_lt_card
    rw [Finset.ssubset_iff_of_subset]
    · refine ⟨HandleManager.hash asked manager.slot_size, ?_, ?_⟩
      · exact Finset.mem_filter.mpr ⟨Finset.mem_range.mpr inside, Option.isSome_of_eq_some found⟩
      · intro member
        have isSome := (Finset.mem_filter.mp member).2
        dsimp only at isSome
        rw [Function.update_self] at isSome
        cases isSome
    · intro i member
      obtain ⟨below, isSome⟩ := Finset.mem_filter.mp member
      obtain ⟨ctx, isEntry⟩ := Option.isSome_iff_exists.mp isSome
      obtain ⟨_, old⟩ := PartialMap.unbind_eq_some_iff.mp isEntry
      exact Finset.mem_filter.mpr ⟨below, Option.isSome_of_eq_some old⟩
  · rw [retired] at succeeded
    cases succeeded

/-- One round of the inner loop of `retireAll`: it tries the handle of a living object. -/
theorem retireSlots_succ (alive : T → Bool) (handle : T → UInt32)
    (count i : Nat) (manager : HandleManager T) :
    ((∀ ctx, lockSlot alive manager.slot i = some ctx → handle ctx = 0) ∧
      retireSlots alive handle (count + 1) i manager =
        retireSlots alive handle count (i + 1) manager) ∨
    ∃ ctx, lockSlot alive manager.slot i = some ctx ∧ handle ctx ≠ 0 ∧
      retireSlots alive handle (count + 1) i manager =
        ((retire alive handle manager (handle ctx)).1 ||
          (retireSlots alive handle count (i + 1)
            (retire alive handle manager (handle ctx)).2).1,
        (retireSlots alive handle count (i + 1)
          (retire alive handle manager (handle ctx)).2).2) := by
  conv => enter [1, 2, 1]; unfold retireSlots
  conv => enter [2, 1, ctx, 2, 2, 1]; unfold retireSlots
  cases locked : lockSlot alive manager.slot i with
  | none =>
      left
      refine ⟨fun ctx found => ?_, rfl⟩
      cases found
  | some ctx =>
      by_cases zero : handle ctx = 0
      · left
        refine ⟨fun other found => ?_, if_neg (not_not.mpr zero)⟩
        cases Option.some.inj found
        exact zero
      · right
        exact ⟨ctx, rfl, zero, if_pos zero⟩

theorem retire_of_false {asked : UInt32} (failed : (retire alive handle manager asked).1 = false) :
    (retire alive handle manager asked).2 = manager := by
  rcases SlotTable.retire_cases alive handle manager asked with ⟨obj, _, _, retired⟩ | ⟨_, retired⟩
  · rw [retired] at failed
    cases failed
  · rw [retired]

/-- What the inner loop of `retireAll` does. -/
theorem retireSlots_less (alive : T → Bool) (handle : T → UInt32) (count : Nat) :
    ∀ i (manager : HandleManager T),
    Less (retireSlots alive handle count i manager).2 manager := by
  induction count with
  | zero => exact fun _ manager => Less.refl manager
  | succ count ih =>
      intro i manager
      rcases retireSlots_succ alive handle count i manager with
        ⟨_, round⟩ | ⟨ctx, _, _, round⟩
      · rw [round]
        exact ih (i + 1) manager
      · rw [round]
        exact (ih (i + 1) _).trans (retire_less alive handle manager _)

/-- It skips the objects whose handle is 0. -/
theorem retireSlots_kept (alive : T → Bool) (count : Nat) {j : Nat} {ctx : T}
    (zero : handle ctx = 0) : ∀ i (manager : HandleManager T), manager.slot j = some ctx →
      (retireSlots alive handle count i manager).2.slot j = some ctx := by
  induction count with
  | zero => exact fun _ _ found => found
  | succ count ih =>
      intro i manager found
      rcases retireSlots_succ alive handle count i manager with
        ⟨_, round⟩ | ⟨other, _, nonzero, round⟩
      · rw [round]
        exact ih (i + 1) manager found
      · rw [round]
        apply ih (i + 1)
        apply retire_kept alive found
        rw [zero]
        exact nonzero.symm

/-- When it retires an object, a slot gets free. -/
theorem retireSlots_true (alive : T → Bool) (handle : T → UInt32) (small : exponent ≤ 31)
    (count : Nat) :
    ∀ i (manager : HandleManager T), manager.slot_size = 2 ^ exponent →
      (retireSlots alive handle count i manager).1 = true →
      occupied (retireSlots alive handle count i manager).2 < occupied manager := by
  induction count with
  | zero =>
      intro i manager _ retired
      cases retired
  | succ count ih =>
      intro i manager size retired
      rcases retireSlots_succ alive handle count i manager with
        ⟨_, round⟩ | ⟨ctx, _, _, round⟩
      · rw [round] at retired ⊢
        exact ih (i + 1) manager size retired
      · rw [round] at retired ⊢
        have fewer := (retire_less alive handle manager (handle ctx)).occupied_le
        have sameSize := (retire_less alive handle manager (handle ctx)).slot_size.trans size
        rcases Bool.or_eq_true_iff.mp retired with here | later
        · exact Nat.lt_of_le_of_lt (retireSlots_less alive handle count (i + 1) _).occupied_le
            (occupied_retire size small here)
        · exact Nat.lt_of_lt_of_le (ih (i + 1) _ sameSize later) fewer

/-- When it retires nothing, it has tried the handle of every living object in vain. -/
theorem retireSlots_false (alive : T → Bool) (handle : T → UInt32) (count : Nat) :
    ∀ i (manager : HandleManager T),
    (retireSlots alive handle count i manager).1 = false →
    (retireSlots alive handle count i manager).2 = manager ∧
    ∀ j, i ≤ j → j < i + count → ∀ ctx, lockSlot alive manager.slot j = some ctx →
      handle ctx ≠ 0 → (retire alive handle manager (handle ctx)).1 = false := by
  induction count with
  | zero =>
      intro i manager _
      refine ⟨rfl, fun j least below => ?_⟩
      omega
  | succ count ih =>
      intro i manager failed
      rcases retireSlots_succ alive handle count i manager with
        ⟨zero, round⟩ | ⟨ctx, locked, _, round⟩
      · rw [round] at failed ⊢
        obtain ⟨same, tried⟩ := ih (i + 1) manager failed
        refine ⟨same, fun j least below other found nonzero => ?_⟩
        rcases Nat.eq_or_lt_of_le least with rfl | later
        · exact absurd (zero other found) nonzero
        · exact tried j later (by omega) other found nonzero
      · rw [round] at failed ⊢
        obtain ⟨here, later⟩ := Bool.or_eq_false_iff.mp failed
        rw [retire_of_false here] at later ⊢
        obtain ⟨same, tried⟩ := ih (i + 1) manager later
        refine ⟨same, fun j least below other found nonzero => ?_⟩
        rcases Nat.eq_or_lt_of_le least with rfl | after
        · cases Option.some.inj (locked.symm.trans found)
          exact here
        · exact tried j after (by omega) other found nonzero

/-- What `retireAll` leaves: no handle of a living object is left that `retire` would accept. -/
theorem retireAll_spec (fuel : Nat) : ∀ manager : HandleManager T,
    retireAll alive handle fuel manager = .ok next →
    Less next manager ∧ ∀ i < next.slot_size, ∀ ctx, lockSlot alive next.slot i = some ctx →
      handle ctx ≠ 0 → (retire alive handle next (handle ctx)).1 = false := by
  induction fuel with
  | zero =>
      intro manager returned
      cases returned
  | succ fuel ih =>
      intro manager returned
      unfold retireAll at returned
      have less := retireSlots_less alive handle manager.slot_size 0 manager
      cases round : retireSlots alive handle manager.slot_size 0 manager with
      | mk retired rest =>
          rw [round] at returned less
          cases retired with
          | true =>
              obtain ⟨fewer, done⟩ := ih rest returned
              exact ⟨fewer.trans less, done⟩
          | false =>
              obtain ⟨same, tried⟩ := retireSlots_false alive handle
                manager.slot_size 0 manager (by rw [round])
              rw [round] at same
              dsimp only at same
              subst same
              cases Except.ok.inj returned
              refine ⟨Less.refl _, fun i below => tried i (Nat.zero_le i) (by omega)⟩

/-- The objects whose handle is 0 stay registered. -/
theorem retireAll_kept (fuel : Nat) {i : Nat} {ctx : T} (zero : handle ctx = 0) :
    ∀ manager : HandleManager T, retireAll alive handle fuel manager = .ok next →
      manager.slot i = some ctx → next.slot i = some ctx := by
  induction fuel with
  | zero =>
      intro manager returned
      cases returned
  | succ fuel ih =>
      intro manager returned found
      unfold retireAll at returned
      have kept := retireSlots_kept alive manager.slot_size zero 0 manager found
      cases round : retireSlots alive handle manager.slot_size 0 manager with
      | mk retired rest =>
          rw [round] at returned kept
          cases retired with
          | true => exact ih rest returned kept
          | false =>
              cases Except.ok.inj returned
              exact kept

/-- As many rounds as slots are occupied, and one more, suffice for `retireAll`. -/
theorem retireAll_fuel (alive : T → Bool) (handle : T → UInt32) (small : exponent ≤ 31)
    (fuel : Nat) : ∀ manager : HandleManager T,
    manager.slot_size = 2 ^ exponent → occupied manager < fuel →
    ∃ next, retireAll alive handle fuel manager = .ok next := by
  induction fuel with
  | zero =>
      intro manager _ few
      exact absurd few (Nat.not_lt_zero _)
  | succ fuel ih =>
      intro manager size few
      unfold retireAll
      have less := retireSlots_less alive handle manager.slot_size 0 manager
      have fewer := retireSlots_true alive handle small manager.slot_size 0
        manager size
      cases round : retireSlots alive handle manager.slot_size 0 manager with
      | mk retired rest =>
          rw [round] at less fewer
          cases retired with
          | true =>
              have : occupied rest < occupied manager := fewer rfl
              exact ih rest (less.slot_size.trans size) (by omega)
          | false => exact ⟨rest, rfl⟩

theorem occupied_le (manager : HandleManager T) : occupied manager ≤ manager.slot_size := by
  have := Finset.card_filter_le (Finset.range manager.slot_size)
    fun i => (manager.slot i).isSome = true
  rwa [Finset.card_range] at this

end Retire

end Placement

end EasyLua
