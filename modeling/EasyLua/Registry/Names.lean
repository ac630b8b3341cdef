import EasyLua.Foundation.BinarySearch
import EasyLua.Foundation.Cells
import EasyLua.Foundation.Machine
import EasyLua.Foundation.PartialMap
import EasyLua.Registry.SlotTable

/-!
# The names of the handle manager

`findName`, `nameHandle` and `_insert_name_before` of `handleManager.h`, and what `retire` does
with the names: once on the list of the names, and once on the cells of `nameArray`, as the loops
of the source move them. The two agree, and are a finite map from names to handles.
-/

namespace EasyLua

/-- `strcmp`. A C string is given by the bytes before its terminator. -/
def strcmp (first second : List UInt8) : Ordering := compare first second

namespace HandleManager

variable {T : Type}

/-- The comparison of the loops of `findName` and `nameHandle`. -/
def compareName (manager : HandleManager T) (name : List UInt8) (mid : Nat) : Ordering :=
  match manager.nameArray[mid]? with
  | some n => strcmp n.name name
  | none => .gt

/-- The loop of `findName` and of `nameHandle`. -/
def searchName (manager : HandleManager T) (name : List UInt8) : BinarySearch.Place :=
  BinarySearch.search (manager.compareName name) 0 ((manager.nameArray.length : Int) - 1)

/-- `HandleManager::findName`. -/
def findName (manager : HandleManager T) (name : List UInt8) : UInt32 :=
  match manager.searchName name with
  | .hit mid => (manager.nameArray[mid]?.map HandleName.handle).getD 0
  | .miss _ => 0

/-- `HandleManager::_insert_name_before`. -/
def insertNameBefore (manager : HandleManager T) (name : List UInt8) (handle : UInt32)
    (before : Nat) : Except Failure (HandleManager T) :=
  let nameArray := manager.nameArray.take before ++
    { name, handle } :: manager.nameArray.drop before
  if manager.name_cap ≤ manager.nameArray.length then
    if manager.name_cap * 2 ≤ MAX_SLOT_SIZE then
      .ok { manager with name_cap := manager.name_cap * 2, nameArray }
    else .error .assertion
  else .ok { manager with nameArray }

/-- `HandleManager::nameHandle`, which returns `nullptr` or the name. -/
def nameHandle (manager : HandleManager T) (handle : UInt32) (name : List UInt8) :
    Except Failure (Option (List UInt8) × HandleManager T) :=
  match manager.searchName name with
  | .hit _ => .ok (none, manager)
  | .miss before => (manager.insertNameBefore name handle before).map fun next => (some name, next)

end HandleManager

/-- `name_cap`, `name_count` and `nameArray`. Cells from `name_count` on hold anything. -/
structure NameArray where
  name_cap : Nat
  name_count : Nat
  nameArray : Nat → HandleName

namespace NameArray

open HandleManager

variable (array : NameArray)

/-- The names in use. -/
def names : List HandleName := Cells.window array.nameArray array.name_count

/-- The comparison of the loops of `findName` and `nameHandle`. -/
def compareName (name : List UInt8) (mid : Nat) : Ordering :=
  strcmp (array.nameArray mid).name name

/-- The loop of `findName` and of `nameHandle`. -/
def searchName (name : List UInt8) : BinarySearch.Place :=
  BinarySearch.search (array.compareName name) 0 ((array.name_count : Int) - 1)

/-- `HandleManager::findName`. -/
def findName (name : List UInt8) : UInt32 :=
  match array.searchName name with
  | .hit mid => (array.nameArray mid).handle
  | .miss _ => 0

/-- `HandleManager::_insert_name_before`; the cells of a new array hold anything at first. -/
def insertNameBefore (name : List UInt8) (handle : UInt32) (before : Nat)
    (new : Nat → HandleName) : Except Failure NameArray :=
  if array.name_cap ≤ array.name_count then
    if array.name_cap * 2 ≤ MAX_SLOT_SIZE then
      let n := Cells.copy array.nameArray 0 before 0 new
      let n := Cells.copy array.nameArray 1 (array.name_count - before) before n
      .ok {
        name_cap := array.name_cap * 2
        name_count := array.name_count + 1
        nameArray := Function.update n before { name, handle } }
    else .error .assertion
  else
    let n := Cells.shift before array.name_count array.nameArray
    .ok { array with
      name_count := array.name_count + 1
      nameArray := Function.update n before { name, handle } }

/-- `HandleManager::nameHandle`. -/
def nameHandle (handle : UInt32) (name : List UInt8) (new : Nat → HandleName) :
    Except Failure (Option (List UInt8) × NameArray) :=
  match array.searchName name with
  | .hit _ => .ok (none, array)
  | .miss before =>
      (array.insertNameBefore name handle before new).map fun next => (some name, next)

/-- The loop of `HandleManager::retire` over the names. -/
def retire (handle : UInt32) : NameArray :=
  let (j, n) := Cells.compact (fun n => n.handle = handle) array.name_count 0 0 array.nameArray
  { array with
    name_count := j
    nameArray := n }

end NameArray

namespace Names

open HandleManager

variable {T : Type}

/-! ## The list of the names -/

/-- The names are strictly increasing in the order of `strcmp`. -/
def Increasing (names : List HandleName) : Prop :=
  names.Pairwise fun first second => strcmp first.name second.name = .lt

/-- The finite map that a list of names stands for. -/
def bindings (names : List HandleName) (name : List UInt8) : Option UInt32 :=
  (names.find? fun n => n.name = name).map HandleName.handle

theorem strcmp_eq_iff {first second : List UInt8} : strcmp first second = .eq ↔ first = second := by
  unfold strcmp
  exact Std.LawfulEqCmp.compare_eq_iff_eq

theorem strcmp_lt_trans {first second third : List UInt8} (left : strcmp first second = .lt)
    (right : strcmp second third ≠ .gt) : strcmp first third = .lt := by
  unfold strcmp at left right ⊢
  exact Std.TransCmp.lt_of_lt_of_isLE left (Ordering.isLE_iff_ne_gt.mpr right)

theorem strcmp_gt_iff {first second : List UInt8} :
    strcmp first second = .gt ↔ strcmp second first = .lt := by
  unfold strcmp
  exact Std.OrientedCmp.gt_iff_lt

/-- No two names of an increasing list are equal. -/
theorem Increasing.unique {names : List HandleName} (increasing : Increasing names) :
    ∀ first ∈ names, ∀ second ∈ names, first.name = second.name → first = second := by
  have apart : ∀ i j (first : i < names.length) (second : j < names.length), i < j →
      names[i].name ≠ names[j].name := by
    intro i j first second below same
    have order := List.pairwise_iff_getElem.mp increasing i j first second below
    rw [strcmp_eq_iff.mpr same] at order
    cases order
  intro first isFirst second isSecond same
  obtain ⟨i, insideFirst, rfl⟩ := List.mem_iff_getElem.mp isFirst
  obtain ⟨j, insideSecond, rfl⟩ := List.mem_iff_getElem.mp isSecond
  rcases Nat.lt_trichotomy i j with below | rfl | above
  · exact absurd same (apart i j insideFirst insideSecond below)
  · rfl
  · exact absurd same.symm (apart j i insideSecond insideFirst above)

theorem bindings_eq_some_iff {names : List HandleName} (increasing : Increasing names)
    {name : List UInt8} {handle : UInt32} :
    bindings names name = some handle ↔ { name, handle } ∈ names := by
  unfold bindings
  rw [Option.map_eq_some_iff]
  constructor
  · rintro ⟨n, found, rfl⟩
    have same : n.name = name := by simpa using List.find?_some found
    subst same
    exact List.mem_of_find?_eq_some found
  · intro member
    cases found : names.find? fun n => n.name = name with
    | none =>
        have := List.find?_eq_none.mp found _ member
        exact absurd (decide_eq_true rfl) this
    | some n =>
        have same : n.name = name := by simpa using List.find?_some found
        refine ⟨n, rfl, ?_⟩
        rw [increasing.unique n (List.mem_of_find?_eq_some found) _ member same]

theorem bindings_eq_none_iff {names : List HandleName} {name : List UInt8} :
    bindings names name = none ↔ ∀ n ∈ names, n.name ≠ name := by
  unfold bindings
  rw [Option.map_eq_none_iff, List.find?_eq_none]
  simp only [decide_eq_true_eq, ne_eq]

section List

variable {manager : HandleManager T}

/-- The comparisons with a name along an increasing list. -/
theorem sorted_compareName (increasing : Increasing manager.nameArray) (name : List UInt8) :
    BinarySearch.Sorted (manager.compareName name) manager.nameArray.length := by
  intro i j below inside notAbove
  have insideFirst : i < manager.nameArray.length := Nat.lt_trans below inside
  have order := List.pairwise_iff_getElem.mp increasing i j insideFirst inside below
  unfold compareName at notAbove ⊢
  rw [List.getElem?_eq_getElem inside] at notAbove
  rw [List.getElem?_eq_getElem insideFirst]
  exact strcmp_lt_trans order notAbove

theorem unbound_of_between {names : List HandleName} {name : List UInt8} {before : Nat}
    (lower : ∀ n ∈ names.take before, strcmp n.name name = .lt)
    (upper : ∀ n ∈ names.drop before, strcmp name n.name = .lt) : bindings names name = none := by
  rw [bindings_eq_none_iff]
  rintro n member rfl
  rw [← List.take_append_drop before names, List.mem_append] at member
  have equal : strcmp n.name n.name = .eq := strcmp_eq_iff.mpr rfl
  rcases member with first | second
  · rw [lower n first] at equal
    cases equal
  · rw [upper n second] at equal
    cases equal

/-- What the loop finds: the entry of the name, or the place between smaller and greater names. -/
theorem searchName_found (increasing : Increasing manager.nameArray) (name : List UInt8) :
    (∃ mid n, manager.searchName name = .hit mid ∧ manager.nameArray[mid]? = some n ∧
      bindings manager.nameArray name = some n.handle) ∨
    (∃ before, manager.searchName name = .miss before ∧ before ≤ manager.nameArray.length ∧
      bindings manager.nameArray name = none ∧
      (∀ n ∈ manager.nameArray.take before, strcmp n.name name = .lt) ∧
      ∀ n ∈ manager.nameArray.drop before, strcmp name n.name = .lt) := by
  have found := BinarySearch.found (sorted_compareName increasing name)
  unfold searchName
  cases place : BinarySearch.search (manager.compareName name) 0 _ with
  | hit mid =>
      rw [place] at found
      obtain ⟨inside, equal⟩ := found
      unfold compareName at equal
      rw [List.getElem?_eq_getElem inside] at equal
      obtain rfl := strcmp_eq_iff.mp equal
      refine Or.inl ⟨mid, _, rfl, List.getElem?_eq_getElem inside, ?_⟩
      exact (bindings_eq_some_iff increasing).mpr (List.getElem_mem inside)
  | miss before =>
      rw [place] at found
      obtain ⟨inside, below, above⟩ := found
      have lower : ∀ n ∈ manager.nameArray.take before, strcmp n.name name = .lt := by
        intro n member
        obtain ⟨i, small, rfl⟩ := List.mem_iff_getElem.mp member
        rw [List.length_take] at small
        have smaller := below i (by omega)
        unfold compareName at smaller
        rw [List.getElem?_eq_getElem (by omega)] at smaller
        rw [List.getElem_take]
        exact smaller
      have upper : ∀ n ∈ manager.nameArray.drop before, strcmp name n.name = .lt := by
        intro n member
        obtain ⟨i, small, rfl⟩ := List.mem_iff_getElem.mp member
        rw [List.length_drop] at small
        have greater := above (before + i) (Nat.le_add_right _ _) (by omega)
        unfold compareName at greater
        rw [List.getElem?_eq_getElem (by omega)] at greater
        rw [List.getElem_drop]
        exact strcmp_gt_iff.mp greater
      exact Or.inr ⟨before, rfl, inside, unbound_of_between lower upper, lower, upper⟩

/-- **`findName` looks the name up.** -/
theorem findName_eq (increasing : Increasing manager.nameArray) (name : List UInt8) :
    manager.findName name = (bindings manager.nameArray name).getD 0 := by
  unfold findName
  rcases searchName_found increasing name with
    ⟨mid, n, place, found, bound⟩ | ⟨before, place, _, unbound, _, _⟩
  · rw [place, bound]
    dsimp only
    rw [found]
    rfl
  · rw [place, unbound]
    rfl

/-- The bindings after an insertion. -/
theorem bindings_insert {names : List HandleName} {name : List UInt8} {handle : UInt32}
    {before : Nat} (increasing : Increasing names)
    (longer : Increasing (names.take before ++ { name, handle } :: names.drop before)) :
    bindings (names.take before ++ { name, handle } :: names.drop before) =
      Function.update (bindings names) name (some handle) := by
  have members : ∀ n, n ∈ names.take before ++ { name, handle } :: names.drop before ↔
      n = { name, handle } ∨ n ∈ names := by
    intro n
    conv_rhs => rw [← List.take_append_drop before names, List.mem_append]
    rw [List.mem_append, List.mem_cons, or_left_comm]
  funext other
  apply Option.ext
  intro result
  rw [bindings_eq_some_iff longer, members, PartialMap.bind_eq_some_iff,
    bindings_eq_some_iff increasing, HandleName.mk.injEq]
  constructor
  · rintro (⟨rfl, rfl⟩ | member)
    · exact Or.inl ⟨rfl, rfl⟩
    · by_cases same : other = name
      · subst same
        have both := longer.unique _ ((members _).mpr (Or.inr member)) _
          ((members _).mpr (Or.inl rfl)) rfl
        exact Or.inl ⟨rfl, (HandleName.mk.inj both).2.symm⟩
      · exact Or.inr ⟨same, member⟩
  · rintro (⟨rfl, rfl⟩ | ⟨_, member⟩)
    · exact Or.inl ⟨rfl, rfl⟩
    · exact Or.inr member

/-- What `nameHandle` does: nothing for a bound name, and otherwise it inserts a binding. -/
theorem nameHandle_cases (increasing : Increasing manager.nameArray) (handle : UInt32)
    (name : List UInt8) :
    (∃ old, bindings manager.nameArray name = some old ∧
      manager.nameHandle handle name = .ok (none, manager)) ∨
    (∃ before, bindings manager.nameArray name = none ∧
      Increasing (manager.nameArray.take before ++
        { name, handle } :: manager.nameArray.drop before) ∧
      manager.nameHandle handle name =
        (manager.insertNameBefore name handle before).map fun next => (some name, next)) := by
  unfold nameHandle
  rcases searchName_found increasing name with
    ⟨mid, n, place, found, bound⟩ | ⟨before, place, inside, unbound, lower, upper⟩
  · left
    refine ⟨n.handle, bound, ?_⟩
    rw [place]
  · right
    refine ⟨before, unbound, Cells.pairwise_insert increasing lower upper, ?_⟩
    rw [place]

/-- What `nameHandle` leaves when it returns: the slots as they were, and at most one new name. -/
structure Named (handle : UInt32) (manager next : HandleManager T) : Prop where
  handle_index : next.handle_index = manager.handle_index
  slot_size : next.slot_size = manager.slot_size
  slot : next.slot = manager.slot
  increasing : Increasing next.nameArray
  names : ∀ n ∈ next.nameArray, n ∈ manager.nameArray ∨ n.handle = handle

theorem nameHandle_named (increasing : Increasing manager.nameArray) {handle : UInt32}
    {name : List UInt8} {result : Option (List UInt8)} {next : HandleManager T}
    (returned : manager.nameHandle handle name = .ok (result, next)) :
    Named handle manager next := by
  rcases nameHandle_cases increasing handle name with
    ⟨_, _, same⟩ | ⟨before, _, longer, inserted⟩
  · rw [same] at returned
    cases (Prod.mk.inj (Except.ok.inj returned)).2
    exact ⟨rfl, rfl, rfl, increasing, fun n member => Or.inl member⟩
  · have names : ∀ n ∈ manager.nameArray.take before ++
        { name, handle } :: manager.nameArray.drop before,
        n ∈ manager.nameArray ∨ n.handle = handle := by
      intro n member
      rcases List.mem_append.mp member with first | later
      · exact Or.inl (List.mem_of_mem_take first)
      · rcases List.mem_cons.mp later with rfl | last
        · exact Or.inr rfl
        · exact Or.inl (List.mem_of_mem_drop last)
    rw [inserted] at returned
    unfold insertNameBefore at returned
    dsimp only at returned
    split at returned
    · split at returned
      · cases (Prod.mk.inj (Except.ok.inj returned)).2
        exact ⟨rfl, rfl, rfl, longer, names⟩
      · cases returned
    · cases (Prod.mk.inj (Except.ok.inj returned)).2
      exact ⟨rfl, rfl, rfl, longer, names⟩

end List

/-- The bindings that `retire` leaves. -/
theorem bindings_filter {names : List HandleName} (increasing : Increasing names)
    (handle : UInt32) (name : List UInt8) :
    bindings (names.filter fun n => n.handle ≠ handle) name =
      (bindings names name).filter (· ≠ handle) := by
  apply Option.ext
  intro result
  rw [bindings_eq_some_iff (List.Pairwise.filter _ increasing), List.mem_filter,
    Option.filter_eq_some_iff, bindings_eq_some_iff increasing]

/-! ## The cells -/

/-- The manager with its arrays. -/
structure World (T : Type) where
  handle_index : UInt32
  slot_size : Nat
  slot : Nat → Option T
  array : NameArray

/-- The manager that the arrays stand for. -/
def World.manager (world : World T) : HandleManager T where
  handle_index := world.handle_index
  slot_size := world.slot_size
  slot := world.slot
  name_cap := world.array.name_cap
  nameArray := world.array.names

/-- One call. Which objects are alive and what their `handle()` returns may be different in
each. -/
inductive Event (T : Type)
  | checkIn (alive : T → Bool) (handle : T → UInt32) (ctx : T)
  | retire (alive : T → Bool) (handle : T → UInt32) (handle_ : UInt32)
  | findName (name : List UInt8)
  /-- The cells that a new array happens to hold are given. -/
  | nameHandle (handle : UInt32) (name : List UInt8) (new : Nat → HandleName)

/-- One step; no result when the operation does not return. -/
def step (world : World T) : Event T → Option (World T)
  | .checkIn alive handle ctx =>
      match checkIn alive handle ctx 2 world.manager with
      | .ok (_, manager) =>
          some { world with
            handle_index := manager.handle_index
            slot_size := manager.slot_size
            slot := manager.slot }
      | .error _ => none
  | .retire alive handle handle_ =>
      let (retired, manager) := retire alive handle world.manager handle_
      some { world with
        slot := manager.slot
        array := if retired then world.array.retire handle_ else world.array }
  | .findName _ => some world
  | .nameHandle handle name new =>
      match world.array.nameHandle handle name new with
      | .ok (_, array) => some { world with array }
      | .error _ => none

/-- The histories of a manager. -/
def machine (T : Type) (new : Nat → HandleName) : Machine (World T) (Event T) where
  init := {
    handle_index := 1
    slot_size := DEFAULT_SLOT_SIZE
    slot := fun _ => none
    array := { name_cap := 2, name_count := 0, nameArray := new } }
  step := step

variable {world next : World T}

theorem length_names (array : NameArray) : array.names.length = array.name_count :=
  Cells.length_window

/-- The loops of the cells and of the list find the same. -/
theorem searchName_manager (world : World T) (name : List UInt8) :
    world.manager.searchName name = world.array.searchName name := by
  unfold HandleManager.searchName NameArray.searchName
  have length : world.manager.nameArray.length = world.array.name_count := length_names _
  rw [length]
  apply BinarySearch.search_congr
  · exact Int.le_refl 0
  · intro i _ below
    have cell : world.manager.nameArray[i]? = some (world.array.nameArray i) := by
      dsimp only [World.manager, NameArray.names]
      rw [Cells.getElem?_window, if_pos (by omega)]
    unfold HandleManager.compareName NameArray.compareName
    rw [cell]

/-- The cells that the loop stops at are in use. -/
theorem searchName_inside (array : NameArray) (name : List UInt8) :
    BinarySearch.Inside 0 ((array.name_count : Int) - 1) (array.searchName name) :=
  BinarySearch.search_inside _ _ _ (Int.le_refl 0) (by omega)

theorem findName_manager (world : World T) (name : List UInt8) :
    world.manager.findName name = world.array.findName name := by
  have inside := searchName_inside world.array name
  unfold HandleManager.findName NameArray.findName
  rw [searchName_manager]
  cases place : world.array.searchName name with
  | hit mid =>
      rw [place] at inside
      have cell : world.manager.nameArray[mid]? = some (world.array.nameArray mid) := by
        dsimp only [World.manager, NameArray.names, BinarySearch.Inside] at inside ⊢
        rw [Cells.getElem?_window, if_pos (by omega)]
      dsimp only
      rw [cell]
      rfl
  | miss before => rfl

/-- The cells of a longer array in which the first part was copied in place, and the rest one
cell up. -/
theorem window_grow (cell new : Nat → HandleName) {before count : Nat} (inside : before ≤ count)
    (n : HandleName) :
    Cells.window (Function.update (Cells.copy cell 1 (count - before) before
      (Cells.copy cell 0 before 0 new)) before n) (count + 1) =
      (Cells.window cell count).take before ++ n :: (Cells.window cell count).drop before := by
  rw [Cells.window_insert inside, Function.update_self]
  · intro k below
    rw [Function.update_of_ne (by omega), Cells.copy_apply, if_neg (by omega), Cells.copy_apply,
      if_pos (by omega), Nat.sub_zero]
  · intro k above below
    rw [Function.update_of_ne (by omega), Cells.copy_apply, if_pos (by omega), Nat.add_sub_cancel]

/-- The cells of an array in which the rest was shifted one cell up. -/
theorem window_shift (cell : Nat → HandleName) {before count : Nat} (inside : before ≤ count)
    (n : HandleName) :
    Cells.window (Function.update (Cells.shift before count cell) before n) (count + 1) =
      (Cells.window cell count).take before ++ n :: (Cells.window cell count).drop before := by
  rw [Cells.window_insert inside, Function.update_self]
  · intro k below
    rw [Function.update_of_ne (by omega), Cells.shift_apply, if_neg (by omega)]
  · intro k above below
    rw [Function.update_of_ne (by omega), Cells.shift_apply, if_pos (by omega), Nat.add_sub_cancel]

/-- Both code paths of `_insert_name_before` insert into the list. -/
theorem insertNameBefore_manager (world : World T) (name : List UInt8) (handle : UInt32)
    {before : Nat} (inside : before ≤ world.array.name_count) (new : Nat → HandleName) :
    world.manager.insertNameBefore name handle before =
      (world.array.insertNameBefore name handle before new).map
        fun array => { world with array }.manager := by
  have length : world.manager.nameArray.length = world.array.name_count := length_names _
  have grown := window_grow world.array.nameArray new inside { name, handle }
  have shifted := window_shift world.array.nameArray inside { name, handle }
  unfold HandleManager.insertNameBefore NameArray.insertNameBefore
  rw [length]
  have cap : world.manager.name_cap = world.array.name_cap := rfl
  have list : world.manager.nameArray =
    Cells.window world.array.nameArray world.array.name_count := rfl
  rw [cap, list]
  by_cases full : world.array.name_cap ≤ world.array.name_count
  · rw [if_pos full, if_pos full]
    by_cases small : world.array.name_cap * 2 ≤ MAX_SLOT_SIZE
    · rw [if_pos small, if_pos small, ← grown]
      rfl
    · rw [if_neg small, if_neg small]
      rfl
  · rw [if_neg full, if_neg full, ← shifted]
    rfl

theorem names_retire (array : NameArray) (handle : UInt32) :
    (array.retire handle).names = array.names.filter fun n => n.handle ≠ handle := by
  refine (Cells.window_compact _ _ _).trans ?_
  apply List.filter_congr
  intro n _
  rw [decide_not]

/-- **The cells do what the list does** in each operation on the names. -/
theorem nameHandle_manager (world : World T) (handle : UInt32) (name : List UInt8)
    (new : Nat → HandleName) :
    world.manager.nameHandle handle name =
      (world.array.nameHandle handle name new).map
        fun (result, array) => (result, { world with array }.manager) := by
  have inside := searchName_inside world.array name
  unfold HandleManager.nameHandle NameArray.nameHandle
  rw [searchName_manager]
  cases place : world.array.searchName name with
  | hit mid => rfl
  | miss before =>
      rw [place] at inside
      dsimp only [BinarySearch.Inside] at inside ⊢
      rw [insertNameBefore_manager world name handle (by omega) new]
      cases world.array.insertNameBefore name handle before new with
      | ok array => rfl
      | error failure => rfl

/-- What `retire` does with the names: it closes them up when it retires an object. -/
theorem step_retire (alive : T → Bool) (handle : T → UInt32) (world : World T)
    (handle_ : UInt32) :
    ((retire alive handle world.manager handle_).1 = true ∧ ∃ next,
      step world (.retire alive handle handle_) = some next ∧
      next.array = world.array.retire handle_ ∧
      next.manager = (retire alive handle world.manager handle_).2) ∨
    ((retire alive handle world.manager handle_).1 = false ∧
      step world (.retire alive handle handle_) = some world ∧
      world.manager = (retire alive handle world.manager handle_).2) := by
  unfold step
  dsimp only
  rcases SlotTable.retire_cases alive handle world.manager handle_ with
    ⟨obj, _, _, retired⟩ | ⟨_, retired⟩
  · left
    rw [retired]
    refine ⟨rfl, _, rfl, rfl, ?_⟩
    dsimp only [World.manager]
    rw [if_pos rfl, names_retire]
    rfl
  · right
    rw [retired]
    exact ⟨rfl, rfl, rfl⟩

/-! ## Histories -/

/-- The names are in strict order, and fit into an array of which the size is a power of two. -/
structure Sound (array : NameArray) : Prop where
  increasing : Increasing array.names
  fits : array.name_count ≤ array.name_cap
  cap : ∃ exponent ≤ 30, array.name_cap = 2 ^ exponent

theorem sound_init (new : Nat → HandleName) : Sound (machine T new).init.array where
  increasing := List.Pairwise.nil
  fits := Nat.zero_le 2
  cap := ⟨1, by decide, rfl⟩

theorem Sound.retire {array : NameArray} (sound : Sound array) (handle : UInt32) :
    Sound (array.retire handle) where
  increasing := by
    rw [names_retire]
    exact List.Pairwise.filter _ sound.increasing
  fits := by
    have shorter := List.length_filter_le (fun n : HandleName => decide (n.handle ≠ handle))
      array.names
    rw [← names_retire, length_names, length_names] at shorter
    exact Nat.le_trans shorter sound.fits
  cap := sound.cap

/-- What `_insert_name_before` does: it fails when the array is as long as it may get. -/
theorem Sound.insertNameBefore_cases {array : NameArray} (sound : Sound array)
    (name : List UInt8) (handle : UInt32) {before : Nat} (inside : before ≤ array.name_count)
    (new : Nat → HandleName) :
    (array.name_count = MAX_SLOT_SIZE ∧
      array.insertNameBefore name handle before new = .error .assertion) ∨
    ∃ longer, array.insertNameBefore name handle before new = .ok longer ∧
      longer.names = array.names.take before ++ { name, handle } :: array.names.drop before ∧
      longer.name_count ≤ longer.name_cap ∧ ∃ exponent ≤ 30, longer.name_cap = 2 ^ exponent := by
  obtain ⟨exponent, small, cap⟩ := sound.cap
  have fits := sound.fits
  unfold NameArray.insertNameBefore
  by_cases full : array.name_cap ≤ array.name_count
  · rw [if_pos full]
    by_cases last : exponent = 30
    · have longest : array.name_cap = MAX_SLOT_SIZE := by
        rw [cap, last]
        rfl
      left
      refine ⟨by omega, ?_⟩
      rw [longest]
      rfl
    · have room : array.name_cap * 2 ≤ MAX_SLOT_SIZE := by
        rw [cap, ← Nat.pow_succ]
        exact Nat.pow_le_pow_right (by decide) (show exponent + 1 ≤ 30 by omega)
      right
      rw [if_pos room]
      refine ⟨_, rfl, window_grow _ new inside _, ?_, exponent + 1, by omega, ?_⟩
      · have : 0 < array.name_cap := by
          rw [cap]
          exact Nat.two_pow_pos exponent
        dsimp only
        omega
      · dsimp only
        rw [cap, Nat.pow_succ]
  · right
    rw [if_neg full]
    refine ⟨_, rfl, window_shift _ inside _, ?_, exponent, small, cap⟩
    dsimp only
    omega

/-- What `nameHandle` does with the cells: nothing for a bound name, and it binds another one as
long as the array may grow. -/
theorem Sound.nameHandle_cases (sound : Sound world.array) (handle : UInt32)
    (name : List UInt8) (new : Nat → HandleName) :
    (∃ old, bindings world.array.names name = some old ∧
      world.array.nameHandle handle name new = .ok (none, world.array)) ∨
    (bindings world.array.names name = none ∧ world.array.name_count = MAX_SLOT_SIZE ∧
      world.array.nameHandle handle name new = .error .assertion) ∨
    (bindings world.array.names name = none ∧ ∃ longer,
      world.array.nameHandle handle name new = .ok (some name, longer) ∧ Sound longer ∧
      bindings longer.names = Function.update (bindings world.array.names) name (some handle)) := by
  have increasing : Increasing world.manager.nameArray := sound.increasing
  unfold NameArray.nameHandle
  rw [← searchName_manager]
  rcases searchName_found increasing name with
    ⟨mid, n, place, _, bound⟩ | ⟨before, place, inside, unbound, lower, upper⟩
  · left
    rw [place]
    exact ⟨n.handle, bound, rfl⟩
  · right
    rw [place]
    dsimp only
    have room : before ≤ world.array.name_count := by
      rw [← length_names]
      exact inside
    rcases sound.insertNameBefore_cases name handle room new with
      ⟨longest, failed⟩ | ⟨longer, inserted, names, fits, cap⟩
    · left
      rw [failed]
      exact ⟨unbound, longest, rfl⟩
    · right
      rw [inserted]
      have order : Increasing longer.names := by
        rw [names]
        exact Cells.pairwise_insert sound.increasing lower upper
      refine ⟨unbound, longer, rfl, ⟨order, fits, cap⟩, ?_⟩
      rw [names] at order ⊢
      exact bindings_insert sound.increasing order

theorem sound_step (sound : Sound world.array) {event : Event T}
    (stepped : step world event = some next) : Sound next.array := by
  unfold step at stepped
  cases event with
  | checkIn alive handle ctx =>
      dsimp only at stepped
      split at stepped
      · cases Option.some.inj stepped
        exact sound
      · cases stepped
  | retire alive handle handle_ =>
      change step world (.retire alive handle handle_) = some next at stepped
      rcases step_retire alive handle world handle_ with
        ⟨_, other, again, closed, _⟩ | ⟨_, again, _⟩
      · rw [again] at stepped
        cases Option.some.inj stepped
        rw [closed]
        exact sound.retire handle_
      · rw [again] at stepped
        cases Option.some.inj stepped
        exact sound
  | findName name =>
      cases Option.some.inj stepped
      exact sound
  | nameHandle handle name new =>
      dsimp only at stepped
      rcases sound.nameHandle_cases handle name new with
        ⟨_, _, same⟩ | ⟨_, _, failed⟩ | ⟨_, longer, named, better, _⟩
      · rw [same] at stepped
        cases Option.some.inj stepped
        exact sound
      · rw [failed] at stepped
        cases stepped
      · rw [named] at stepped
        cases Option.some.inj stepped
        exact better

/-- What the operations on the names do in a state of a history: they are those of a finite map. -/
structure FiniteMap (world : World T) : Prop where
  increasing : ∀ i j, i < j → j < world.array.name_count →
    strcmp (world.array.nameArray i).name (world.array.nameArray j).name = .lt
  fits : world.array.name_count ≤ world.array.name_cap
  findName : ∀ name, world.array.findName name = (bindings world.array.names name).getD 0
  nameHandle : ∀ handle name new, bindings world.array.names name = none →
    world.array.name_count < MAX_SLOT_SIZE → ∃ next,
      step world (.nameHandle handle name new) = some next ∧
      world.array.nameHandle handle name new = .ok (some name, next.array) ∧
      bindings next.array.names = Function.update (bindings world.array.names) name (some handle)
  named : ∀ handle name new old, bindings world.array.names name = some old →
    step world (.nameHandle handle name new) = some world ∧
      world.array.nameHandle handle name new = .ok (none, world.array)
  retired : ∀ alive handle handle_, (retire alive handle world.manager handle_).1 = true →
    ∃ next, step world (.retire alive handle handle_) = some next ∧
      ∀ name, bindings next.array.names name =
        (bindings world.array.names name).filter (· ≠ handle_)
  missed : ∀ alive handle handle_, (retire alive handle world.manager handle_).1 = false →
    step world (.retire alive handle handle_) = some world

theorem Sound.finiteMap (sound : Sound world.array) : FiniteMap world where
  increasing := by
    have order := sound.increasing
    exact fun i j below inside => Cells.pairwise_window.mp order i j below inside
  fits := sound.fits
  findName := by
    intro name
    rw [← findName_manager]
    exact findName_eq sound.increasing name
  nameHandle := by
    intro handle name new unbound room
    rcases sound.nameHandle_cases handle name new with
      ⟨old, bound, _⟩ | ⟨_, longest, _⟩ | ⟨_, longer, named, _, bound⟩
    · rw [unbound] at bound
      cases bound
    · exact absurd longest (Nat.ne_of_lt room)
    · refine ⟨{ world with array := longer }, ?_, named, bound⟩
      unfold step
      dsimp only
      rw [named]
  named := by
    intro handle name new old bound
    rcases sound.nameHandle_cases handle name new with
      ⟨_, _, same⟩ | ⟨unbound, _, _⟩ | ⟨unbound, _, _, _, _⟩
    · refine ⟨?_, same⟩
      unfold step
      dsimp only
      rw [same]
    · rw [bound] at unbound
      cases unbound
    · rw [bound] at unbound
      cases unbound
  retired := by
    intro alive handle handle_ succeeded
    rcases step_retire alive handle world handle_ with ⟨_, next, stepped, closed, _⟩ | ⟨failed, _⟩
    · refine ⟨next, stepped, fun name => ?_⟩
      rw [closed, names_retire, bindings_filter sound.increasing]
    · rw [succeeded] at failed
      cases failed
  missed := by
    intro alive handle handle_ failed
    rcases step_retire alive handle world handle_ with ⟨succeeded, _⟩ | ⟨_, stepped, _⟩
    · rw [failed] at succeeded
      cases succeeded
    · exact stepped

/-- **The name table refines a finite map** in every state of a history. -/
theorem finiteMap_of_run (new : Nat → HandleName) (events : List (Event T)) (world : World T)
    (ran : (machine T new).run events = some world) : FiniteMap world := by
  have sound : Sound world.array :=
    (machine T new).run_invariant (fun world => Sound world.array) (sound_init new)
      (fun _ _ _ sound stepped => sound_step sound stepped) events world ran
  exact sound.finiteMap

/-- The third name makes the array grow, and the retirement of the object takes two of them. -/
theorem finiteMap_of_run_grown : ∃ world, (machine Nat fun _ => ⟨[], 9⟩).run
    [.checkIn (fun _ => true) (fun _ => 1) 0, .nameHandle 1 [99] fun _ => ⟨[], 9⟩,
      .nameHandle 1 [97] fun _ => ⟨[], 9⟩, .nameHandle 2 [98] fun _ => ⟨[], 9⟩,
      .retire (fun _ => true) (fun _ => 1) 1] = some world ∧
    (world.array.name_cap, world.array.names.map HandleName.name) = (4, [[98]]) ∧
    FiniteMap world := by
  have observed : ((machine Nat fun _ => ⟨[], 9⟩).run
      [.checkIn (fun _ => true) (fun _ => 1) 0, .nameHandle 1 [99] fun _ => ⟨[], 9⟩,
        .nameHandle 1 [97] fun _ => ⟨[], 9⟩, .nameHandle 2 [98] fun _ => ⟨[], 9⟩,
        .retire (fun _ => true) (fun _ => 1) 1]).map
      (fun world => (world.array.name_cap, world.array.names.map HandleName.name)) =
      some (4, [[98]]) := by decide +kernel
  obtain ⟨world, ran, names⟩ := Option.map_eq_some_iff.mp observed
  exact ⟨world, ran, names, finiteMap_of_run _ _ world ran⟩

end Names

end EasyLua
