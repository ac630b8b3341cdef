import EasyLua.Foundation.Machine
import EasyLua.Registry.Register
import Mathlib.Algebra.Order.Ring.Int
import Mathlib.Data.List.Nodup
import Mathlib.Data.List.Perm.Subperm
import Mathlib.Logic.Function.Basic

/-!
# Giving out handles

The constructors of `cVmContext` and of `cServiceInfo` in the steps that other threads can
come between. Both increment a counter that all instances share, and the mutex that they
hold meanwhile is the one of the new instance. Contexts are then checked in under their
handles.
-/

namespace EasyLua

namespace Handles

/-- Where the constructor of an instance stands. Up to `constructed` it holds the mutex of
the instance, which no other thread knows yet. -/
inductive Progress
  | locked
  /-- It has read `lastHandle_`. -/
  | read (value : Int32)
  /-- It has written `lastHandle_`. -/
  | written (value : Int32)
  | stored (handle_ : UInt32)
  /-- It has unlocked the mutex and returned. -/
  | constructed (handle_ : UInt32)

variable (Registry : Type)

/-- The static counter, the instances numbered in the order in which their constructors
start, and the registries of contexts. -/
structure World where
  lastHandle_ : Int32
  instance_ : Nat → Option Progress
  started : Nat
  map_ : Registry → Register Int32 Nat

/-- One step of a constructor, or `Register::checkIn`. -/
inductive Event
  | lock
  | read (number : Nat)
  | write (number : Nat)
  | store (number : Nat)
  | unlock (number : Nat)
  | checkIn (registry : Registry) (number : Nat)

variable {Registry}

/-- The key of a handle in `Register<int, cVmContext>`. -/
def key (handle_ : UInt32) : Int32 := handle_.toInt32

def World.progress (world : World Registry) (number : Nat) (progress : Progress) :
    World Registry :=
  { world with instance_ := Function.update world.instance_ number (some progress) }

variable [DecidableEq Registry]

/-- One step; no result when it is not the next one of its constructor. -/
def step (world : World Registry) : Event Registry → Option (World Registry)
  | .lock => some { world.progress world.started .locked with started := world.started + 1 }
  | .read number =>
      match world.instance_ number with
      | some .locked => some (world.progress number (.read world.lastHandle_))
      | _ => none
  | .write number =>
      match world.instance_ number with
      | some (.read value) =>
          some { world.progress number (.written (value + 1)) with lastHandle_ := value + 1 }
      | _ => none
  | .store number =>
      match world.instance_ number with
      | some (.written value) => some (world.progress number (.stored value.toUInt32))
      | _ => none
  | .unlock number =>
      match world.instance_ number with
      | some (.stored handle_) => some (world.progress number (.constructed handle_))
      | _ => none
  | .checkIn registry number =>
      match world.instance_ number with
      | some (.constructed handle_) =>
          some { world with
            map_ := Function.update world.map_ registry
              ((world.map_ registry).checkIn (fun _ => key handle_) number).1 }
      | _ => none

/-- The interleavings of the constructors. -/
def machine : Machine (World Registry) (Event Registry) where
  init := { lastHandle_ := 0, instance_ := fun _ => none, started := 0, map_ := fun _ => {} }
  step := step

/-- No constructor reads the counter while another one is between its read and its write. -/
def ReadsAlone (world : World Registry) : Event Registry → Prop
  | .read _ => ∀ other value, world.instance_ other ≠ some (.read value)
  | _ => True

/-- Constructed instances have pairwise distinct handles, and checking one in leaves it
registered. -/
structure Unique (world : World Registry) : Prop where
  distinct : ∀ first second handle_, world.instance_ first = some (.constructed handle_) →
    world.instance_ second = some (.constructed handle_) → first = second
  registered : ∀ registry number handle_, world.instance_ number = some (.constructed handle_) →
    ((world.map_ registry).checkIn (fun _ => key handle_) number).1.map_[key handle_]? =
      some number

/-- All constructors have returned. -/
def Finished (world : World Registry) : Prop :=
  ∀ number progress, world.instance_ number = some progress →
    ∃ handle_, progress = .constructed handle_

/-- The number that a constructor has written. -/
def Progress.number : Progress → Option Int32
  | .locked => none
  | .read _ => none
  | .written value => some value
  | .stored handle_ => some (key handle_)
  | .constructed handle_ => some (key handle_)

/-- The number that a constructor has written or is going to. -/
def Progress.next : Progress → Option Int32
  | .read value => some (value + 1)
  | progress => progress.number

/-! ## Services -/

variable (Registry) in
/-- The constructor of `cServiceInfo` is called in `ServiceMgr`'s `fetchOrCreate`, which holds
the mutex of the registry: the instance that it creates. -/
structure Manager where
  world : World Registry
  creates : Option Nat

/-- One step of `fetchOrCreate` for a new name. -/
inductive ManagerEvent
  /-- `fetchOrCreate` locks the mutex of the registry and calls the constructor. -/
  | fetchOrCreate
  | read
  | write
  | store
  | unlock
  /-- `fetchOrCreate` returns. -/
  | return_

/-- A step of the constructor that `fetchOrCreate` has called. -/
def Manager.inside (manager : Manager Registry) (event : Nat → Event Registry) :
    Option (Manager Registry) :=
  match manager.creates with
  | some number => (step manager.world (event number)).map fun world => { manager with world }
  | none => none

/-- One step; no result when another thread holds the mutex of the registry. -/
def managerStep (manager : Manager Registry) : ManagerEvent → Option (Manager Registry)
  | .fetchOrCreate =>
      match manager.creates with
      | some _ => none
      | none =>
          (step manager.world .lock).map fun world =>
            { world, creates := some manager.world.started }
  | .read => manager.inside .read
  | .write => manager.inside .write
  | .store => manager.inside .store
  | .unlock => manager.inside .unlock
  | .return_ =>
      match manager.creates.bind manager.world.instance_ with
      | some (.constructed _) => some { manager with creates := none }
      | _ => none

variable (Registry) in
/-- The interleavings of the calls of `fetchOrCreate`. -/
def managerMachine : Machine (Manager Registry) ManagerEvent where
  init := { world := machine.init, creates := none }
  step := managerStep

/-! ## Invariants -/

/-- The constructors have written one after the other, in this order, and at most one of them
is about to write. -/
structure Sequential (order : List Nat) (world : World Registry) : Prop where
  nodup : order.Nodup
  counter : world.lastHandle_ = Int32.ofNat order.length
  written : ∀ number ∈ order, ((world.instance_ number).bind Progress.number).isSome
  place : ∀ number value, (world.instance_ number).bind Progress.number = some value →
    ∃ i, order[i]? = some number ∧ value = Int32.ofNat (i + 1)
  pending : ∀ number value, world.instance_ number = some (.read value) →
    value = world.lastHandle_ ∧
      ∀ other, other ≠ number → ∀ another, world.instance_ other ≠ some (.read another)

/-- The numbers of instances that have not started are free, and an entry is that of a
constructed instance under its key. -/
structure Known (world : World Registry) : Prop where
  fresh : ∀ number, world.started ≤ number → world.instance_ number = none
  entry : ∀ registry (key_ : Int32) number, (world.map_ registry).map_[key_]? = some number →
    ∃ handle_, world.instance_ number = some (.constructed handle_) ∧ key handle_ = key_

/-- Two instances have or get the same handle. -/
def Clash (world : World Registry) : Prop :=
  ∃ first second value, first ≠ second ∧ (world.instance_ first).bind Progress.next = some value ∧
    (world.instance_ second).bind Progress.next = some value

variable {world next : World Registry} {order : List Nat}

/-! ## Steps -/

omit [DecidableEq Registry] in
theorem progress_self (number : Nat) (progress : Progress) :
    (world.progress number progress).instance_ number = some progress :=
  Function.update_self ..

omit [DecidableEq Registry] in
theorem progress_of_ne {number other : Nat} (different : other ≠ number) (progress : Progress) :
    (world.progress number progress).instance_ other = world.instance_ other :=
  Function.update_of_ne different ..

theorem step_read {number : Nat} (stepped : step world (.read number) = some next) :
    world.instance_ number = some .locked ∧
      next = world.progress number (.read world.lastHandle_) := by
  simp only [step] at stepped
  split at stepped
  · next found => exact ⟨found, (Option.some.inj stepped).symm⟩
  · cases stepped

theorem step_write {number : Nat} (stepped : step world (.write number) = some next) :
    ∃ value, world.instance_ number = some (.read value) ∧
      next = { world.progress number (.written (value + 1)) with lastHandle_ := value + 1 } := by
  simp only [step] at stepped
  split at stepped
  · next value found => exact ⟨value, found, (Option.some.inj stepped).symm⟩
  · cases stepped

theorem step_store {number : Nat} (stepped : step world (.store number) = some next) :
    ∃ value, world.instance_ number = some (.written value) ∧
      next = world.progress number (.stored value.toUInt32) := by
  simp only [step] at stepped
  split at stepped
  · next value found => exact ⟨value, found, (Option.some.inj stepped).symm⟩
  · cases stepped

theorem step_unlock {number : Nat} (stepped : step world (.unlock number) = some next) :
    ∃ handle_, world.instance_ number = some (.stored handle_) ∧
      next = world.progress number (.constructed handle_) := by
  simp only [step] at stepped
  split at stepped
  · next handle_ found => exact ⟨handle_, found, (Option.some.inj stepped).symm⟩
  · cases stepped

theorem step_checkIn {registry : Registry} {number : Nat}
    (stepped : step world (.checkIn registry number) = some next) :
    ∃ handle_, world.instance_ number = some (.constructed handle_) ∧
      next = { world with
        map_ := Function.update world.map_ registry
          ((world.map_ registry).checkIn (fun _ => key handle_) number).1 } := by
  simp only [step] at stepped
  split at stepped
  · next handle_ found => exact ⟨handle_, found, (Option.some.inj stepped).symm⟩
  · cases stepped

/-! ## One after the other -/

omit [DecidableEq Registry] in
/-- A step that writes no number. -/
theorem Sequential.progress (sequential : Sequential order world) {number : Nat}
    {progress : Progress}
    (same : progress.number = (world.instance_ number).bind Progress.number)
    (alone : ∀ value, progress = .read value → value = world.lastHandle_ ∧
      ∀ other another, world.instance_ other ≠ some (.read another)) :
    Sequential order (world.progress number progress) := by
  have sameNumber (other : Nat) : ((world.progress number progress).instance_ other).bind
      Progress.number = (world.instance_ other).bind Progress.number := by
    by_cases here : other = number
    · subst here
      rw [progress_self]
      exact same
    · rw [progress_of_ne here]
  refine ⟨sequential.nodup, sequential.counter, ?_, ?_, ?_⟩
  · intro other member
    rw [sameNumber]
    exact sequential.written other member
  · intro other value has
    rw [sameNumber] at has
    exact sequential.place other value has
  · intro other value reading
    by_cases here : other = number
    · subst here
      rw [progress_self] at reading
      obtain ⟨current, nobody⟩ := alone value (Option.some.inj reading)
      refine ⟨current, fun another different => ?_⟩
      rw [progress_of_ne different]
      exact nobody another
    · rw [progress_of_ne here] at reading
      obtain ⟨current, nobody⟩ := sequential.pending other value reading
      refine ⟨current, fun another different other' found => ?_⟩
      by_cases there : another = number
      · subst there
        rw [progress_self] at found
        exact (alone other' (Option.some.inj found)).2 other value reading
      · rw [progress_of_ne there] at found
        exact nobody another different other' found

omit [DecidableEq Registry] in
/-- The constructor that has read the counter writes the next number. -/
theorem Sequential.write (sequential : Sequential order world) {number : Nat} {value : Int32}
    (reading : world.instance_ number = some (.read value)) :
    Sequential (order ++ [number])
      { world.progress number (.written (value + 1)) with lastHandle_ := value + 1 } := by
  obtain ⟨current, alone⟩ := sequential.pending number value reading
  have unwritten : number ∉ order := by
    intro member
    have has := sequential.written number member
    rw [reading] at has
    cases has
  have following : value + 1 = Int32.ofNat (order.length + 1) := by
    rw [current, sequential.counter, Int32.ofNat_add]
    rfl
  refine ⟨?_, ?_, ?_, ?_, ?_⟩
  · exact List.nodup_append.mpr ⟨sequential.nodup, List.nodup_singleton number, by
      intro other member last same
      exact fun equal => unwritten (List.mem_singleton.mp same ▸ equal ▸ member)⟩
  · rw [List.length_append]
    exact following
  · intro other member
    by_cases here : other = number
    · subst here
      rw [progress_self]
      rfl
    · rw [progress_of_ne here]
      have old := (List.mem_append.mp member).resolve_right fun last =>
        here (List.mem_singleton.mp last)
      exact sequential.written other old
  · intro other written has
    by_cases here : other = number
    · subst here
      rw [progress_self] at has
      obtain rfl := Option.some.inj has
      exact ⟨order.length, List.getElem?_concat_length, following⟩
    · rw [progress_of_ne here] at has
      obtain ⟨i, place, is⟩ := sequential.place other written has
      refine ⟨i, ?_, is⟩
      rw [List.getElem?_append_left (List.getElem?_eq_some_iff.mp place).choose]
      exact place
  · intro other another found
    exfalso
    by_cases here : other = number
    · subst here
      rw [progress_self] at found
      cases found
    · rw [progress_of_ne here] at found
      exact alone other here another found

/-- Constructors whose reads do not overlap write one after the other. -/
theorem Sequential.step (sequential : Sequential order world) (known : Known world)
    {event : Event Registry} (alone : ReadsAlone world event)
    (stepped : step world event = some next) : ∃ order, Sequential order next := by
  cases event with
  | lock =>
      cases stepped
      have absent := known.fresh world.started (Nat.le_refl _)
      have locked : Sequential order (world.progress world.started .locked) := by
        refine sequential.progress ?_ nofun
        rw [absent]
        rfl
      exact ⟨order, locked.nodup, locked.counter, locked.written, locked.place, locked.pending⟩
  | read number =>
      obtain ⟨found, rfl⟩ := step_read stepped
      refine ⟨order, sequential.progress ?_ fun value same => ?_⟩
      · rw [found]
        rfl
      · cases same
        exact ⟨rfl, fun other another => alone other another⟩
  | write number =>
      obtain ⟨value, found, rfl⟩ := step_write stepped
      exact ⟨_, sequential.write found⟩
  | store number =>
      obtain ⟨value, found, rfl⟩ := step_store stepped
      refine ⟨order, sequential.progress ?_ nofun⟩
      rw [found]
      rfl
  | unlock number =>
      obtain ⟨handle_, found, rfl⟩ := step_unlock stepped
      refine ⟨order, sequential.progress ?_ nofun⟩
      rw [found]
      rfl
  | checkIn registry number =>
      obtain ⟨_, _, rfl⟩ := step_checkIn stepped
      exact ⟨order, sequential.nodup, sequential.counter, sequential.written, sequential.place,
        sequential.pending⟩

omit [DecidableEq Registry] in
/-- Fewer handles are written than constructors have started. -/
theorem Sequential.length_le (sequential : Sequential order world) (known : Known world) :
    order.length ≤ world.started := by
  have inside : order ⊆ List.range world.started := by
    intro number member
    have has := sequential.written number member
    by_contra late
    rw [known.fresh number (Nat.not_lt.mp (List.mem_range.not.mp late))] at has
    cases has
  have fewer := (List.subperm_of_subset sequential.nodup inside).length_le
  rw [List.length_range] at fewer
  exact fewer

omit [DecidableEq Registry] in
/-- The numbers that have been written do not repeat before the counter wraps. -/
theorem Sequential.distinct (sequential : Sequential order world) (known : Known world)
    (few : world.started < 2 ^ 32) {first second : Nat} {value : Int32}
    (left : (world.instance_ first).bind Progress.number = some value)
    (right : (world.instance_ second).bind Progress.number = some value) : first = second := by
  obtain ⟨i, isFirst, rfl⟩ := sequential.place first value left
  obtain ⟨j, isSecond, same⟩ := sequential.place second _ right
  have inside := (List.getElem?_eq_some_iff.mp isFirst).choose
  have insideToo := (List.getElem?_eq_some_iff.mp isSecond).choose
  have bound := sequential.length_le known
  have numbers : (UInt32.ofNat (i + 1)).toNat = (UInt32.ofNat (j + 1)).toNat :=
    congrArg (fun value : Int32 => value.toUInt32.toNat) same
  rw [UInt32.toNat_ofNat', UInt32.toNat_ofNat'] at numbers
  obtain rfl : i = j := by omega
  exact Option.some.inj (isFirst.symm.trans isSecond)

/-! ## Checking in -/

omit [DecidableEq Registry] in
/-- A constructor that has not returned goes on. -/
theorem Known.progress (known : Known world) {number : Nat} (progress : Progress)
    (started : number < world.started)
    (unfinished : ∀ handle_, world.instance_ number ≠ some (.constructed handle_)) :
    Known (world.progress number progress) where
  fresh := by
    intro other late
    have different : other ≠ number := Nat.ne_of_gt (Nat.lt_of_lt_of_le started late)
    rw [progress_of_ne different]
    exact known.fresh other late
  entry := by
    intro registry key_ other present
    obtain ⟨handle_, found, same⟩ := known.entry registry key_ other present
    have different : other ≠ number := by
      rintro rfl
      exact unfinished handle_ found
    exact ⟨handle_, (progress_of_ne different progress).trans found, same⟩

theorem Known.step (known : Known world) {event : Event Registry}
    (stepped : step world event = some next) : Known next := by
  have started {number : Nat} {progress : Progress}
      (found : world.instance_ number = some progress) : number < world.started := by
    by_contra late
    rw [known.fresh number (Nat.not_lt.mp late)] at found
    cases found
  have goesOn {number : Nat} {before : Progress}
      (found : world.instance_ number = some before)
      (unfinished : ∀ handle_, before ≠ .constructed handle_) (progress : Progress) :
      Known (world.progress number progress) :=
    known.progress progress (started found) fun handle_ same =>
      unfinished handle_ (Option.some.inj (found.symm.trans same))
  cases event with
  | lock =>
      cases stepped
      have absent := known.fresh world.started (Nat.le_refl _)
      have larger : Known { world with started := world.started + 1 } :=
        ⟨fun number late => known.fresh number (Nat.le_of_succ_le late), known.entry⟩
      exact larger.progress .locked (Nat.lt_succ_self _) fun handle_ same =>
        nomatch absent.symm.trans same
  | read number =>
      obtain ⟨found, rfl⟩ := step_read stepped
      exact goesOn found nofun _
  | write number =>
      obtain ⟨value, found, rfl⟩ := step_write stepped
      have written := goesOn found nofun (.written (value + 1))
      exact ⟨written.fresh, written.entry⟩
  | store number =>
      obtain ⟨value, found, rfl⟩ := step_store stepped
      exact goesOn found nofun _
  | unlock number =>
      obtain ⟨handle_, found, rfl⟩ := step_unlock stepped
      exact goesOn found nofun _
  | checkIn registry number =>
      obtain ⟨handle_, found, rfl⟩ := step_checkIn stepped
      refine ⟨known.fresh, fun other key_ entry present => ?_⟩
      by_cases same : other = registry
      · subst same
        simp only [Function.update_self] at present
        rcases (world.map_ other).checkIn_cases (fun _ => key handle_) number with
          ⟨_, _, ignored⟩ | ⟨_, inserted⟩
        · rw [ignored] at present
          exact known.entry other key_ entry present
        · rw [inserted] at present
          by_cases new : key_ = key handle_
          · subst new
            obtain rfl := Option.some.inj (Std.TreeMap.getElem?_insert_self.symm.trans present)
            exact ⟨handle_, found, rfl⟩
          · rw [Register.getElem?_insert_of_ne _ _ new] at present
            exact known.entry other key_ entry present
      · simp only [Function.update_of_ne same] at present
        exact known.entry other key_ entry present

omit [DecidableEq Registry] in
/-- Handles that were written one after the other are pairwise distinct. -/
theorem Sequential.unique (sequential : Sequential order world) (known : Known world)
    (few : world.started < 2 ^ 32) : Unique world := by
  have number {number : Nat} {handle_ : UInt32}
      (found : world.instance_ number = some (.constructed handle_)) :
      (world.instance_ number).bind Progress.number = some (key handle_) := by
    rw [found]
    rfl
  refine ⟨fun first second handle_ left right =>
    sequential.distinct known few (number left) (number right), ?_⟩
  intro registry own handle_ found
  rcases (world.map_ registry).checkIn_cases (fun _ => key handle_) own with
    ⟨other, taken, ignored⟩ | ⟨_, inserted⟩
  · obtain ⟨another, holder, sameKey⟩ := known.entry registry _ other taken
    have holds := number holder
    rw [sameKey] at holds
    obtain rfl := sequential.distinct known few holds (number found)
    rw [ignored]
    exact taken
  · rw [inserted]
    exact Std.TreeMap.getElem?_insert_self

/-! ## Overlapping reads -/

/-- What a constructor has written, or is going to write, stays. -/
theorem next_kept (known : Known world) {event : Event Registry}
    (stepped : step world event = some next) {number : Nat} {value : Int32}
    (has : (world.instance_ number).bind Progress.next = some value) :
    (next.instance_ number).bind Progress.next = some value := by
  have goesOn {other : Nat} {before : Progress} (found : world.instance_ other = some before)
      {after : Progress} (same : ∀ value, before.next = some value → after.next = some value) :
      ((world.progress other after).instance_ number).bind Progress.next = some value := by
    by_cases here : number = other
    · subst here
      rw [progress_self]
      rw [found] at has
      exact same value has
    · rw [progress_of_ne here]
      exact has
  cases event with
  | lock =>
      cases stepped
      have different : number ≠ world.started := by
        rintro rfl
        rw [known.fresh _ (Nat.le_refl _)] at has
        cases has
      change ((world.progress world.started .locked).instance_ number).bind Progress.next = _
      rw [progress_of_ne different]
      exact has
  | read other =>
      obtain ⟨found, rfl⟩ := step_read stepped
      exact goesOn found nofun
  | write other =>
      obtain ⟨written, found, rfl⟩ := step_write stepped
      exact goesOn found fun _ same => same
  | store other =>
      obtain ⟨written, found, rfl⟩ := step_store stepped
      exact goesOn found fun _ same => same
  | unlock other =>
      obtain ⟨handle_, found, rfl⟩ := step_unlock stepped
      exact goesOn found fun _ same => same
  | checkIn registry other =>
      obtain ⟨_, _, rfl⟩ := step_checkIn stepped
      exact has

theorem clash_step (clash : Clash world) (known : Known world) {event : Event Registry}
    (stepped : step world event = some next) : Clash next := by
  obtain ⟨first, second, value, different, left, right⟩ := clash
  exact ⟨first, second, value, different, next_kept known stepped left,
    next_kept known stepped right⟩

/-- Two constructors that have read the same number clash. -/
theorem clash_of_overlap (sequential : Sequential order world) {event : Event Registry}
    (overlap : ¬ ReadsAlone world event) (stepped : step world event = some next) :
    Clash next := by
  cases event with
  | read number =>
      obtain ⟨found, rfl⟩ := step_read stepped
      simp only [ReadsAlone, not_forall, not_not] at overlap
      obtain ⟨other, value, reading⟩ := overlap
      obtain ⟨rfl, _⟩ := sequential.pending other value reading
      have different : other ≠ number := by
        rintro rfl
        cases found.symm.trans reading
      refine ⟨number, other, world.lastHandle_ + 1, different.symm, ?_, ?_⟩
      · rw [progress_self]
        rfl
      · rw [progress_of_ne different, reading]
        rfl
  | lock | write _ | store _ | unlock _ | checkIn _ _ => exact absurd trivial overlap

omit [DecidableEq Registry] in
/-- Constructors that have all returned with distinct handles do not clash. -/
theorem Unique.not_clash (unique : Unique world) (finished : Finished world) : ¬ Clash world := by
  rintro ⟨first, second, value, different, left, right⟩
  obtain ⟨progress, found, hasFirst⟩ := Option.bind_eq_some_iff.mp left
  obtain ⟨progress', found', hasSecond⟩ := Option.bind_eq_some_iff.mp right
  obtain ⟨handle_, rfl⟩ := finished first progress found
  obtain ⟨handle_', rfl⟩ := finished second progress' found'
  have same : handle_ = handle_' :=
    congrArg Int32.toUInt32 (Option.some.inj (hasFirst.trans hasSecond.symm))
  subst same
  exact different (unique.distinct first second handle_ found found')

/-! ## Runs -/

/-- The constructors have written one after the other so far. -/
def InOrder (world : World Registry) : Prop := Known world ∧ ∃ order, Sequential order world

omit [DecidableEq Registry] in
theorem inOrder_initial :
    InOrder ({ lastHandle_ := 0, instance_ := fun _ => none, started := 0, map_ := fun _ => {} } :
      World Registry) := by
  refine ⟨⟨fun _ _ => rfl, fun registry key_ number present => ?_⟩, [], List.nodup_nil, rfl,
    fun number member => absurd member List.not_mem_nil, nofun, nofun⟩
  have empty : (∅ : Std.TreeMap Int32 Nat compare)[key_]? = some number := present
  rw [Std.TreeMap.getElem?_emptyc] at empty
  cases empty

theorem inOrder_step {event : Event Registry} (inOrder : InOrder world)
    (alone : ReadsAlone world event) (stepped : step world event = some next) : InOrder next := by
  obtain ⟨known, order, sequential⟩ := inOrder
  exact ⟨known.step stepped, sequential.step known alone stepped⟩

omit [DecidableEq Registry] in
theorem InOrder.unique (inOrder : InOrder world) (few : world.started < 2 ^ 32) : Unique world := by
  obtain ⟨known, order, sequential⟩ := inOrder
  exact sequential.unique known few

theorem started_le {event : Event Registry} (stepped : step world event = some next) :
    world.started ≤ next.started := by
  cases event with
  | lock =>
      cases stepped
      exact Nat.le_succ _
  | read number =>
      obtain ⟨_, rfl⟩ := step_read stepped
      exact Nat.le_refl _
  | write number =>
      obtain ⟨_, _, rfl⟩ := step_write stepped
      exact Nat.le_refl _
  | store number =>
      obtain ⟨_, _, rfl⟩ := step_store stepped
      exact Nat.le_refl _
  | unlock number =>
      obtain ⟨_, _, rfl⟩ := step_unlock stepped
      exact Nat.le_refl _
  | checkIn registry number =>
      obtain ⟨_, _, rfl⟩ := step_checkIn stepped
      exact Nat.le_refl _

/-- The constructors of a run start one after the other. -/
theorem started_le_of_run {first events : List (Event Registry)} {world last : World Registry}
    (before : first <+: events) (reached : machine.run first = some world)
    (ran : machine.run events = some last) : world.started ≤ last.started := by
  obtain ⟨rest, rfl⟩ := before
  rw [Machine.run_append, reached, Option.bind_some] at ran
  exact machine.runFrom_invariant (fun reached => world.started ≤ reached.started)
    (fun _ _ _ le stepped => le.trans (started_le stepped)) rest world last (Nat.le_refl _) ran

/-- The constructor that `fetchOrCreate` has called is the only one that has not returned. -/
structure Guards (manager : Manager Registry) : Prop where
  inOrder : InOrder manager.world
  only : ∀ number value, manager.world.instance_ number = some (.read value) →
    manager.creates = some number

omit [DecidableEq Registry] in
theorem reading_of_progress {number other : Nat} {progress : Progress} {value : Int32}
    (reading : (world.progress number progress).instance_ other = some (.read value)) :
    other = number ∧ progress = .read value ∨ world.instance_ other = some (.read value) := by
  by_cases here : other = number
  · subst here
    rw [progress_self] at reading
    exact Or.inl ⟨rfl, Option.some.inj reading⟩
  · rw [progress_of_ne here] at reading
    exact Or.inr reading

theorem of_inside {manager after : Manager Registry} {event : Nat → Event Registry}
    (stepped : manager.inside event = some after) :
    ∃ number world, manager.creates = some number ∧
      step manager.world (event number) = some world ∧
      after = { world, creates := some number } := by
  unfold Manager.inside at stepped
  split at stepped
  · next number creates =>
      obtain ⟨world, inner, rfl⟩ := Option.map_eq_some_iff.mp stepped
      exact ⟨number, world, creates, inner, by rw [creates]⟩
  · cases stepped

/-- A constructor goes on, not to read. -/
theorem Guards.goOn {manager after : Manager Registry} (guards : Guards manager)
    {event : Nat → Event Registry} (stepped : manager.inside event = some after)
    (alone : ∀ number, ReadsAlone manager.world (event number))
    (same : ∀ number next, manager.creates = some number →
      Handles.step manager.world (event number) = some next →
      ∀ other value, next.instance_ other = some (.read value) →
        other = number ∨ manager.world.instance_ other = some (.read value)) : Guards after := by
  obtain ⟨number, next, creates, inner, rfl⟩ := of_inside stepped
  refine ⟨inOrder_step guards.inOrder (alone number) inner, fun other value reading => ?_⟩
  rcases same number next creates inner other value reading with rfl | before
  · rfl
  · exact creates.symm.trans (guards.only other value before)

theorem guards_step {manager after : Manager Registry} (guards : Guards manager)
    {event : ManagerEvent} (stepped : managerStep manager event = some after) : Guards after := by
  cases event with
  | fetchOrCreate =>
      simp only [managerStep] at stepped
      split at stepped
      · cases stepped
      · next free =>
          obtain ⟨world, inner, rfl⟩ := Option.map_eq_some_iff.mp stepped
          have alone : ReadsAlone manager.world .lock := trivial
          refine ⟨inOrder_step guards.inOrder alone inner, fun number value reading => ?_⟩
          cases inner
          rcases reading_of_progress reading with ⟨_, same⟩ | before
          · cases same
          · cases free.symm.trans (guards.only number value before)
  | read =>
      obtain ⟨number, next, creates, inner, rfl⟩ := of_inside stepped
      obtain ⟨locked, rfl⟩ := step_read inner
      have alone : ReadsAlone manager.world (.read number) := by
        intro other value reading
        obtain rfl := Option.some.inj (creates.symm.trans (guards.only other value reading))
        cases locked.symm.trans reading
      refine ⟨inOrder_step guards.inOrder alone inner, fun other value reading => ?_⟩
      rcases reading_of_progress reading with ⟨rfl, _⟩ | before
      · rfl
      · exact creates.symm.trans (guards.only other value before)
  | write =>
      refine guards.goOn stepped (fun _ => trivial) fun number next _ inner other value => ?_
      obtain ⟨_, _, rfl⟩ := step_write inner
      exact fun reading => (reading_of_progress reading).imp_left And.left
  | store =>
      refine guards.goOn stepped (fun _ => trivial) fun number next _ inner other value => ?_
      obtain ⟨_, _, rfl⟩ := step_store inner
      exact fun reading => (reading_of_progress reading).imp_left And.left
  | unlock =>
      refine guards.goOn stepped (fun _ => trivial) fun number next _ inner other value => ?_
      obtain ⟨_, _, rfl⟩ := step_unlock inner
      exact fun reading => (reading_of_progress reading).imp_left And.left
  | return_ =>
      simp only [managerStep] at stepped
      split at stepped
      · next handle_ returned =>
          cases stepped
          refine ⟨guards.inOrder, fun number value reading => ?_⟩
          obtain ⟨creates, creating, found⟩ := Option.bind_eq_some_iff.mp returned
          obtain rfl := Option.some.inj (creating.symm.trans (guards.only number value reading))
          cases found.symm.trans reading
      · cases stepped

/-- **Handles are unique if and only if no two constructors overlap between reading and
writing the counter.** If none do, all instances constructed so far have distinct handles in
every state of the run, and so checking one in registers it; if all constructors have
returned with distinct handles, no two have overlapped. The constructors of `cServiceInfo`
never do, as `fetchOrCreate` calls them under the mutex of the registry. -/
theorem unique_iff_readsAlone :
    (∀ events (last : World Registry), machine.run events = some last →
      last.started < 2 ^ 32 →
      (machine.Guarded ReadsAlone machine.init events →
        ∀ first world, first <+: events → machine.run first = some world → Unique world) ∧
      (Finished last → Unique last → machine.Guarded ReadsAlone machine.init events)) ∧
    ∀ events last, (managerMachine Registry).run events = some last →
      last.world.started < 2 ^ 32 → Unique last.world := by
  refine ⟨fun events last ran few => ⟨?_, ?_⟩, ?_⟩
  · intro guarded first world before reached
    have inOrder := machine.run_invariant_of_guarded ReadsAlone InOrder inOrder_initial
      (fun _ _ _ inOrder alone stepped => inOrder_step inOrder alone stepped) first world
      (guarded.initial _ before) reached
    exact inOrder.unique (Nat.lt_of_le_of_lt (started_le_of_run before reached ran) few)
  · intro finished unique
    have bad (state : World Registry) (event : Event Registry) (next : World Registry)
        (clashes : Known state ∧ Clash state) (stepped : step state event = some next) :
        Known next ∧ Clash next :=
      ⟨clashes.1.step stepped, clash_step clashes.2 clashes.1 stepped⟩
    have lost (state : World Registry) (event : Event Registry) (next : World Registry)
        (inOrder : InOrder state) (overlap : ¬ ReadsAlone state event)
        (stepped : step state event = some next) : Known next ∧ Clash next := by
      obtain ⟨known, order, sequential⟩ := inOrder
      exact ⟨known.step stepped, clash_of_overlap sequential overlap stepped⟩
    have either := machine.runFrom_guarded_or
      (fun _ _ _ inOrder alone stepped => inOrder_step inOrder alone stepped) lost bad events
      machine.init last inOrder_initial ran
    exact either.resolve_right fun clashes => unique.not_clash finished clashes.2
  · intro events last ran few
    have guards := (managerMachine Registry).run_invariant Guards ⟨inOrder_initial, nofun⟩
      (fun _ _ _ guards stepped => guards_step guards stepped) events last ran
    exact guards.inOrder.unique few

/-- Two constructors start one after the other on two threads and both read 0. -/
def overlapping : List (Event Unit) :=
  [.lock, .lock, .read 0, .read 1, .write 0, .write 1, .store 0, .store 1, .unlock 0, .unlock 1,
    .checkIn () 0]

/-- **Two instances with the handle 1**: the second one is not registered. -/
theorem overlapping_repeats :
    ∃ last, machine.run overlapping = some last ∧ last.started = 2 ∧ Finished last ∧
      last.instance_ 0 = some (.constructed 1) ∧ last.instance_ 1 = some (.constructed 1) ∧
      ((last.map_ ()).checkIn (fun _ => key 1) 1).1.map_[key 1]? = some 0 ∧ ¬ Unique last := by
  refine ⟨_, rfl, rfl, ?_, rfl, rfl, rfl, fun unique => ?_⟩
  · intro number progress found
    rcases number with _ | _ | number <;> cases found
    · exact ⟨1, rfl⟩
    · exact ⟨1, rfl⟩
  · exact absurd (unique.distinct 0 1 1 rfl rfl) (by decide)

/-- Two constructors that do not overlap. -/
def sequentially : List (Event Unit) :=
  [.lock, .read 0, .write 0, .store 0, .unlock 0, .lock, .read 1, .write 1, .store 1, .unlock 1]

theorem unique_iff_readsAlone_sequentially :
    ∃ last, machine.run sequentially = some last ∧ last.started = 2 ∧ Unique last := by
  obtain ⟨last, ran, started⟩ : ∃ last, machine.run sequentially = some last ∧
      last.started = 2 := ⟨_, rfl, rfl⟩
  refine ⟨last, ran, started, ?_⟩
  have few : last.started < 2 ^ 32 := by omega
  refine (unique_iff_readsAlone.1 sequentially last ran few).1 ?_ sequentially last
    (List.prefix_refl _) ran
  refine .cons trivial rfl (.cons ?_ rfl (.cons trivial rfl (.cons trivial rfl
    (.cons trivial rfl (.cons trivial rfl (.cons ?_ rfl (.cons trivial rfl (.cons trivial rfl
      (.cons trivial rfl trivial)))))))))
  · intro other value reading
    rcases other with _ | other <;> cases reading
  · intro other value reading
    rcases other with _ | _ | other <;> cases reading

end Handles

end EasyLua
