import EasyLua.Seri.Pack

/-!
# When packing fails

The arguments of `luaseri_pack` unfold into the keys and values of their tables. A table
that is shared is unfolded wherever it occurs, and one that contains itself without end,
so the depth counter of `pack_one` is all that ends the recursion. Packing raises an error
when the unfolding has a value of a type that cannot be packed, or anything at all beyond
`MAX_DEPTH`.
-/

namespace EasyLua.Seri

/-- A key or a value that the arguments unfold to, with the number of tables it is in. -/
inductive Reaches (heap : Heap) (values : List LuaValue) : Nat → LuaValue → Prop
  | argument {value : LuaValue} (member : value ∈ values) : Reaches heap values 0 value
  | key {depth ref : Nat} {entry : LuaValue × LuaValue}
      (table : Reaches heap values depth (.table ref)) (member : entry ∈ (heap ref).entries) :
      Reaches heap values (depth + 1) entry.1
  | value {depth ref : Nat} {entry : LuaValue × LuaValue}
      (table : Reaches heap values depth (.table ref)) (member : entry ∈ (heap ref).entries) :
      Reaches heap values (depth + 1) entry.2

/-- What cannot be packed: anything at table depth 33 or more, and a value of a type that
is not supported. -/
def Obstructs (depth : Nat) (value : LuaValue) : Prop :=
  33 ≤ depth ∨ ∃ typename ref, value = .unsupported typename ref

/-! ## The depth counter -/

/-- `pack_one` with the counter it has in the source, which counts up from 0. -/
def packAtDepth (heap : Heap) (depth : Nat) (wb : WriteBlock) (value : LuaValue) :
    Except String WriteBlock :=
  if _tooDeep : MAX_DEPTH < depth then throw "serialize can't pack too depth table"
  else
    match value with
    | .nil => return wbNil wb
    | .scalar (.integer x) => return wbInteger wb x
    | .scalar (.number bits) => return wbReal wb bits
    | .scalar (.boolean boolean) => return wbBoolean wb boolean
    | .scalar (.string str) => return wbString wb str (toInt str.length)
    | .scalar (.lightUserdata pointer) => return wbPointer wb pointer
    | .table ref => wbTable (packAtDepth heap (depth + 1)) wb (heap ref)
    | .unsupported typename _ => throw ("Unsupport type " ++ typename ++ " to serialize")
termination_by MAX_DEPTH + 1 - depth

/-- Counting up to `MAX_DEPTH` and counting down from it are the same recursion. -/
theorem packAtDepth_eq (heap : Heap) (depth : Nat) :
    packAtDepth heap depth = packOne heap (MAX_DEPTH + 1 - depth) := by
  generalize remaining : MAX_DEPTH + 1 - depth = levels
  induction levels generalizing depth with
  | zero =>
      funext wb value
      rw [packAtDepth.eq_def, dif_pos (by omega)]
      rfl
  | succ levels ih =>
      have deeper := ih (depth + 1) (by omega)
      funext wb value
      rw [packAtDepth.eq_def, dif_neg (by omega), deeper]
      rfl

/-- The arguments are packed at depth 0. -/
theorem packFrom_eq (heap : Heap) (wb : WriteBlock) (values : List LuaValue) :
    packFrom heap wb values = values.foldlM (packAtDepth heap 0) wb := by
  rw [packAtDepth_eq]
  rfl

/-! ## Packing one value -/

/-- Nothing that the value unfolds to is obstructed when so many levels are left. -/
def Fits (heap : Heap) : Nat → LuaValue → Prop
  | 0, _ => False
  | levels + 1, value =>
      match value with
      | .nil => True
      | .scalar _ => True
      | .table ref => ∀ entry ∈ (heap ref).entries,
          Fits heap levels entry.1 ∧ Fits heap levels entry.2
      | .unsupported _ _ => False

/-- Packing the value succeeds after any bytes. -/
def Passes (packOne : PackOne) (value : LuaValue) : Prop :=
  ∀ wb, ∃ after, packOne wb value = .ok after

/-- Packing the value raises an error after any bytes. -/
def Stops (packOne : PackOne) (value : LuaValue) : Prop :=
  ∀ wb, ∃ message, packOne wb value = .error message

section Loops

variable {α : Type} {step : WriteBlock → α → Except String WriteBlock} {items : List α}

/-- A loop succeeds when all its rounds do. -/
theorem foldlM_ok (rounds : ∀ item ∈ items, ∀ wb, ∃ after, step wb item = .ok after)
    (wb : WriteBlock) : ∃ after, items.foldlM step wb = .ok after := by
  induction items generalizing wb with
  | nil => exact ⟨wb, rfl⟩
  | cons item items ih =>
      obtain ⟨next, stepped⟩ := rounds item List.mem_cons_self wb
      rw [List.foldlM_cons, stepped]
      exact ih (fun other member => rounds other (List.mem_cons_of_mem item member)) next

/-- A loop raises an error when one of its rounds does. -/
theorem foldlM_error {item : α} (member : item ∈ items)
    (round : ∀ wb, ∃ message, step wb item = .error message) (wb : WriteBlock) :
    ∃ message, items.foldlM step wb = .error message := by
  induction items generalizing wb with
  | nil => exact absurd member List.not_mem_nil
  | cons first items ih =>
      rw [List.foldlM_cons]
      rcases List.mem_cons.mp member with rfl | later
      · obtain ⟨message, stopped⟩ := round wb
        rw [stopped]
        exact ⟨message, rfl⟩
      · cases stepped : step wb first with
        | error message => exact ⟨message, rfl⟩
        | ok next => exact ih later next

end Loops

section Tables

variable {packOne : PackOne} {table : LuaTable}

/-- A key and its value. -/
theorem entry_passes {entry : LuaValue × LuaValue} (key : Passes packOne entry.1)
    (value : Passes packOne entry.2) (wb : WriteBlock) : ∃ after, (do
      let wb ← packOne wb entry.1
      packOne wb entry.2) = .ok after := by
  obtain ⟨next, packedKey⟩ := key wb
  rw [packedKey]
  exact value next

theorem entry_stops {entry : LuaValue × LuaValue}
    (one : Stops packOne entry.1 ∨ Stops packOne entry.2) (wb : WriteBlock) : ∃ message, (do
      let wb ← packOne wb entry.1
      packOne wb entry.2) = .error message := by
  cases packedKey : packOne wb entry.1 with
  | error message => exact ⟨message, rfl⟩
  | ok next =>
      rcases one with key | value
      · obtain ⟨message, stopped⟩ := key wb
        rw [packedKey] at stopped
        exact nomatch stopped
      · exact value next

/-- One round of the hash loop: the array loop has packed some keys already. -/
def packEntry (packOne : PackOne) (arraySize : Int) (wb : WriteBlock)
    (entry : LuaValue × LuaValue) : Except String WriteBlock :=
  if entry.1.inArray arraySize then pure wb
  else do
    let wb ← packOne wb entry.1
    packOne wb entry.2

theorem wbTableHash_ok {arraySize : Int}
    (entries : ∀ entry ∈ table.entries, entry.1.inArray arraySize = false →
      Passes packOne entry.1 ∧ Passes packOne entry.2) (wb : WriteBlock) :
    ∃ after, wbTableHash packOne wb table arraySize = .ok after := by
  have rounds : ∀ entry ∈ table.entries, ∀ wb, ∃ after,
      packEntry packOne arraySize wb entry = .ok after := by
    intro entry member wb
    unfold packEntry
    cases inArray : entry.1.inArray arraySize with
    | true => exact ⟨wb, rfl⟩
    | false =>
        obtain ⟨key, value⟩ := entries entry member inArray
        exact entry_passes key value wb
  obtain ⟨after, packed⟩ := foldlM_ok rounds wb
  change ∃ after, (table.entries.foldlM (packEntry packOne arraySize) wb >>= _) = .ok after
  rw [packed]
  exact ⟨_, rfl⟩

theorem wbTableHash_error {arraySize : Int} {entry : LuaValue × LuaValue}
    (member : entry ∈ table.entries) (outside : entry.1.inArray arraySize = false)
    (one : Stops packOne entry.1 ∨ Stops packOne entry.2) (wb : WriteBlock) :
    ∃ message, wbTableHash packOne wb table arraySize = .error message := by
  have round : ∀ wb, ∃ message, packEntry packOne arraySize wb entry = .error message := by
    intro wb
    unfold packEntry
    rw [outside]
    exact entry_stops one wb
  obtain ⟨message, stopped⟩ := foldlM_error member round wb
  change ∃ message, (table.entries.foldlM (packEntry packOne arraySize) wb >>= _) = .error message
  rw [stopped]
  exact ⟨message, rfl⟩

/-- One round of the array loop. -/
def packField (packOne : PackOne) (table : LuaTable) (wb : WriteBlock) (i : Nat) :
    Except String WriteBlock :=
  packOne wb (table.rawgeti (i + 1))

/-- The header that `wb_table_array` writes. -/
def arrayHeader (wb : WriteBlock) (arraySize : Int) : WriteBlock :=
  if arraySize ≥ MAX_COOKIE - 1 then
    wbInteger (wb.push [combineType TYPE_TABLE (MAX_COOKIE - 1)]) (BitVec.ofInt 64 arraySize)
  else wb.push [combineType TYPE_TABLE arraySize]

/-- The array loop after the header, whatever has become of the border as an `int`. -/
theorem wbTableArray_eq (packOne : PackOne) (table : LuaTable) (wb : WriteBlock) :
    wbTableArray packOne wb table = do
      let wb ← (List.range (toInt table.border).toNat).foldlM (packField packOne table)
        (arrayHeader wb (toInt table.border))
      return (wb, toInt table.border) :=
  rfl

theorem wbTableArray_ok
    (fields : ∀ i : Nat, i < (toInt table.border).toNat → Passes packOne (table.rawgeti (i + 1)))
    (wb : WriteBlock) :
    ∃ after, wbTableArray packOne wb table = .ok (after, toInt table.border) := by
  have rounds : ∀ i ∈ List.range (toInt table.border).toNat, ∀ wb, ∃ after,
      packField packOne table wb i = .ok after :=
    fun i member => fields i (List.mem_range.mp member)
  obtain ⟨after, packed⟩ := foldlM_ok rounds (arrayHeader wb (toInt table.border))
  rw [wbTableArray_eq, packed]
  exact ⟨after, rfl⟩

theorem wbTableArray_error {i : Nat} (inside : i < (toInt table.border).toNat)
    (field : Stops packOne (table.rawgeti (i + 1))) (wb : WriteBlock) :
    ∃ message, wbTableArray packOne wb table = .error message := by
  have round : ∀ wb, ∃ message, packField packOne table wb i = .error message := field
  obtain ⟨message, stopped⟩ := foldlM_error (List.mem_range.mpr inside) round
    (arrayHeader wb (toInt table.border))
  rw [wbTableArray_eq, stopped]
  exact ⟨message, rfl⟩

theorem wbTableArray_size {wb after : WriteBlock} {size : Int}
    (packed : wbTableArray packOne wb table = .ok (after, size)) : size = toInt table.border := by
  rw [wbTableArray_eq] at packed
  cases loop : (List.range (toInt table.border).toNat).foldlM (packField packOne table)
      (arrayHeader wb (toInt table.border)) with
  | error message =>
      rw [loop] at packed
      exact nomatch packed
  | ok wb =>
      rw [loop] at packed
      exact (congrArg Prod.snd (Except.ok.inj packed)).symm

/-- The index under which the array loop finds a key of the array part. -/
theorem index_of_inArray {key : LuaValue} {arraySize : Int}
    (inArray : key.inArray arraySize = true) :
    ∃ i : Nat, i < arraySize.toNat ∧ index (i + 1) = key := by
  cases key with
  | scalar key =>
      cases key with
      | integer x =>
          obtain ⟨positive, le⟩ : 0 < x.toInt ∧ x.toInt ≤ arraySize := by
            simpa [LuaValue.inArray] using inArray
          refine ⟨(x.toInt - 1).toNat, by omega, ?_⟩
          have same : ((x.toInt - 1).toNat : Int) + 1 = x.toInt := by omega
          unfold index
          rw [same, BitVec.ofInt_toInt]
      | boolean value => cases inArray
      | number bits => cases inArray
      | lightUserdata pointer => cases inArray
      | string str => cases inArray
  | nil => cases inArray
  | table ref => cases inArray
  | unsupported typename ref => cases inArray

/-- A table whose entries can all be packed can be packed. A hole of its array part is nil,
which can be packed where the entry at the border can. -/
theorem wbTable_ok (noPairs : table.pairs = none)
    (entries : ∀ entry ∈ table.entries, Passes packOne entry.1 ∧ Passes packOne entry.2)
    (nil : table.entries ≠ [] → Passes packOne .nil) :
    ∀ wb, ∃ after, wbTable packOne wb table = .ok after := by
  intro wb
  have fields : ∀ i : Nat, i < (toInt table.border).toNat →
      Passes packOne (table.rawgeti (i + 1)) := by
    intro i inside
    rcases table.get_cases (index (i + 1)) with hole | entry
    · have border : table.border ≠ 0 := by
        intro zero
        rw [zero] at inside
        exact absurd inside (Nat.not_lt_zero i)
      have top := (table.get_cases (index table.border)).resolve_left
        (table.border_le.resolve_left border)
      unfold LuaTable.rawgeti
      rw [hole]
      exact nil (List.ne_nil_of_mem top)
    · exact (entries _ entry).2
  obtain ⟨middle, array⟩ := wbTableArray_ok fields wb
  have pack : ∀ entry ∈ table.entries, entry.1.inArray (toInt table.border) = false →
      Passes packOne entry.1 ∧ Passes packOne entry.2 :=
    fun entry member _ => entries entry member
  obtain ⟨after, hash⟩ := wbTableHash_ok pack middle
  unfold wbTable
  simp only [noPairs, array]
  exact ⟨after, hash⟩

/-- A table with an entry that cannot be packed cannot be packed. The array loop packs no
keys, so of an entry of the array part it is the value that must stop it: an integer key
stops only where everything does. -/
theorem wbTable_error (noPairs : table.pairs = none) {entry : LuaValue × LuaValue}
    (member : entry ∈ table.entries)
    (one : Stops packOne entry.1 ∨ Stops packOne entry.2)
    (integer : ∀ x, Stops packOne (.scalar (.integer x)) → ∀ value, Stops packOne value) :
    ∀ wb, ∃ message, wbTable packOne wb table = .error message := by
  intro wb
  unfold wbTable
  simp only [noPairs]
  cases inArray : entry.1.inArray (toInt table.border) with
  | true =>
      obtain ⟨i, inside, same⟩ := index_of_inArray inArray
      have value : Stops packOne entry.2 := by
        rcases one with key | value
        · rw [← same] at key
          exact integer _ key _
        · exact value
      have field : table.rawgeti (i + 1) = entry.2 := by
        unfold LuaTable.rawgeti
        rw [same]
        exact table.get_of_mem member
      rw [← field] at value
      obtain ⟨message, stopped⟩ := wbTableArray_error inside value wb
      rw [stopped]
      exact ⟨message, rfl⟩
  | false =>
      cases array : wbTableArray packOne wb table with
      | error message => exact ⟨message, rfl⟩
      | ok pair =>
          obtain ⟨middle, size⟩ := pair
          have same := wbTableArray_size array
          subst same
          exact wbTableHash_error member inArray one middle

end Tables

/-! ## The whole unfolding -/

section Unfolding

variable {heap : Heap} {values : List LuaValue}

/-- At the depth that leaves so many levels, `pack_one` packs what fits and raises an error
for everything else, by induction on the levels. -/
theorem packOne_of_reaches
    (noPairs : ∀ depth ref, Reaches heap values depth (.table ref) → (heap ref).pairs = none)
    (levels : Nat) {depth : Nat} {value : LuaValue} (reaches : Reaches heap values depth value) :
    (Fits heap levels value → Passes (packOne heap levels) value) ∧
      (¬ Fits heap levels value → Stops (packOne heap levels) value) := by
  induction levels generalizing depth value with
  | zero => exact ⟨False.elim, fun _ _ => ⟨_, rfl⟩⟩
  | succ levels ih =>
      cases value with
      | nil => exact ⟨fun _ _ => ⟨_, rfl⟩, fun unfit => absurd trivial unfit⟩
      | scalar scalar =>
          refine ⟨fun _ wb => ?_, fun unfit => absurd trivial unfit⟩
          cases scalar <;> exact ⟨_, rfl⟩
      | unsupported typename ref => exact ⟨False.elim, fun _ _ => ⟨_, rfl⟩⟩
      | table ref =>
          have plain := noPairs depth ref reaches
          have key {entry : LuaValue × LuaValue} (member : entry ∈ (heap ref).entries) :=
            ih (.key reaches member)
          have value {entry : LuaValue × LuaValue} (member : entry ∈ (heap ref).entries) :=
            ih (.value reaches member)
          constructor
          · intro fits
            refine wbTable_ok plain (fun entry member => ?_) fun more => ?_
            · exact ⟨(key member).1 (fits entry member).1, (value member).1 (fits entry member).2⟩
            · obtain ⟨entry, member⟩ := List.exists_mem_of_ne_nil _ more
              have left := (fits entry member).1
              cases levels with
              | zero => exact left.elim
              | succ levels => exact fun _ => ⟨_, rfl⟩
          · intro unfit
            have some_ : ∃ entry ∈ (heap ref).entries,
                ¬ Fits heap levels entry.1 ∨ ¬ Fits heap levels entry.2 := by
              by_contra none_
              push Not at none_
              exact unfit none_
            obtain ⟨entry, member, one⟩ := some_
            refine wbTable_error plain member (one.imp (key member).2 (value member).2) ?_
            intro x stops other
            cases levels with
            | zero => exact fun _ => ⟨_, rfl⟩
            | succ levels =>
                obtain ⟨message, stopped⟩ := stops .init
                exact nomatch stopped

/-- Where nothing obstructs, what is reached fits in the levels that are left. -/
theorem fits_of_clear (clear : ∀ depth value, Reaches heap values depth value →
      ¬ Obstructs depth value) (levels : Nat) {depth : Nat} {value : LuaValue}
    (reaches : Reaches heap values depth value) (left : depth + levels = 33) :
    Fits heap levels value := by
  induction levels generalizing depth value with
  | zero => exact clear depth value reaches (Or.inl (by omega))
  | succ levels ih =>
      cases value with
      | nil => trivial
      | scalar scalar => trivial
      | unsupported typename ref => exact clear depth _ reaches (Or.inr ⟨typename, ref, rfl⟩)
      | table ref =>
          intro entry member
          exact ⟨ih (.key reaches member) (by omega), ih (.value reaches member) (by omega)⟩

/-- Where the arguments fit, everything that is reached does. -/
theorem fits_of_reaches (fits : ∀ value ∈ values, Fits heap (MAX_DEPTH + 1) value) {depth : Nat}
    {value : LuaValue} (reaches : Reaches heap values depth value) :
    ∃ levels, depth + levels = 33 ∧ Fits heap levels value := by
  induction reaches with
  | argument member => exact ⟨33, by omega, fits _ member⟩
  | key table member ih =>
      obtain ⟨levels, left, all⟩ := ih
      cases levels with
      | zero => exact all.elim
      | succ levels => exact ⟨levels, by omega, (all _ member).1⟩
  | value table member ih =>
      obtain ⟨levels, left, all⟩ := ih
      cases levels with
      | zero => exact all.elim
      | succ levels => exact ⟨levels, by omega, (all _ member).2⟩

/-- The arguments fit exactly when nothing that they unfold to obstructs. -/
theorem fits_iff_clear :
    (∀ value ∈ values, Fits heap (MAX_DEPTH + 1) value) ↔
      ∀ depth value, Reaches heap values depth value → ¬ Obstructs depth value := by
  constructor
  · intro fits depth value reaches obstructs
    obtain ⟨levels, left, one⟩ := fits_of_reaches fits reaches
    rcases obstructs with deep | ⟨typename, ref, rfl⟩
    · rw [show levels = 0 by omega] at one
      exact one
    · cases levels with
      | zero => exact one
      | succ levels => exact one
  · intro clear value member
    exact fits_of_clear clear _ (.argument member) (Nat.zero_add _)

/-- The arguments are packed one after the other, so each of them has to fit. -/
theorem luaseriPack_of_reaches
    (noPairs : ∀ depth ref, Reaches heap values depth (.table ref) → (heap ref).pairs = none) :
    ((∀ value ∈ values, Fits heap (MAX_DEPTH + 1) value) →
        ∃ buffer, luaseriPack heap values = .ok buffer) ∧
      ((¬ ∀ value ∈ values, Fits heap (MAX_DEPTH + 1) value) →
        ∃ message, luaseriPack heap values = .error message) := by
  have one {value : LuaValue} (member : value ∈ values) :=
    packOne_of_reaches noPairs (MAX_DEPTH + 1) (.argument member)
  unfold luaseriPack packFrom
  constructor
  · intro fits
    obtain ⟨after, packed⟩ :=
      foldlM_ok (fun value member => (one member).1 (fits value member)) .init
    rw [packed]
    exact ⟨_, rfl⟩
  · intro unfit
    push Not at unfit
    obtain ⟨value, member, tooMuch⟩ := unfit
    obtain ⟨message, stopped⟩ := foldlM_error member ((one member).2 tooMuch) .init
    rw [stopped]
    exact ⟨message, rfl⟩

end Unfolding

/-- **When packing fails.** For arguments that unfold to tables without `__pairs` only,
`luaseri_pack` raises an error if something at table depth 33 or more or of an unsupported
type is reached, and returns a buffer if not. -/
theorem luaseriPack_error_iff (heap : Heap) (values : List LuaValue)
    (noPairs : ∀ depth ref, Reaches heap values depth (.table ref) → (heap ref).pairs = none) :
    ((∃ message, luaseriPack heap values = .error message) ↔
        ∃ depth value, Reaches heap values depth value ∧ Obstructs depth value) ∧
      ((∃ buffer, luaseriPack heap values = .ok buffer) ↔
        ¬ ∃ depth value, Reaches heap values depth value ∧ Obstructs depth value) := by
  obtain ⟨succeeds, fails⟩ := luaseriPack_of_reaches noPairs
  have clear : (∀ value ∈ values, Fits heap (MAX_DEPTH + 1) value) ↔
      ¬ ∃ depth value, Reaches heap values depth value ∧ Obstructs depth value := by
    rw [fits_iff_clear]
    push Not
    exact Iff.rfl
  by_cases obstructed : ∃ depth value, Reaches heap values depth value ∧ Obstructs depth value
  · obtain ⟨message, stopped⟩ := fails fun fits => clear.mp fits obstructed
    refine ⟨⟨fun _ => obstructed, fun _ => ⟨message, stopped⟩⟩, ?_,
      fun free => absurd obstructed free⟩
    rintro ⟨buffer, packed⟩
    rw [stopped] at packed
    exact nomatch packed
  · obtain ⟨buffer, packed⟩ := succeeds (clear.mpr obstructed)
    refine ⟨⟨?_, fun blocked => absurd blocked obstructed⟩, fun _ => obstructed,
      fun _ => ⟨buffer, packed⟩⟩
    rintro ⟨message, stopped⟩
    rw [packed] at stopped
    exact nomatch stopped

/-- The table `{ value }`. -/
def single (value : LuaValue) (present : value ≠ .nil) : LuaTable where
  entries := [(index 1, value)]
  border := 1
  keys_nodup := List.nodup_singleton _
  isKey := by
    intro entry member
    rw [List.mem_singleton.mp member]
    exact ⟨rfl, rfl⟩
  value_ne_nil := by
    intro entry member
    rw [List.mem_singleton.mp member]
    exact present
  border_le := Or.inr present
  border_end := rfl

/-- A table that contains itself: `t = {}; t[1] = t`. -/
def cyclic : Heap := fun _ => single (.table 0) nofun

/-- It is reached at every depth. -/
theorem cyclic_reaches (depth : Nat) : Reaches cyclic [.table 0] depth (.table 0) := by
  induction depth with
  | zero => exact .argument List.mem_cons_self
  | succ depth ih =>
      exact .value ih (show (index 1, .table 0) ∈ (cyclic 0).entries from List.mem_cons_self)

theorem luaseriPack_error_iff_cyclic :
    (∃ message, luaseriPack cyclic [.table 0] = .error message) ∧
      ¬ ∃ buffer, luaseriPack cyclic [.table 0] = .ok buffer := by
  have either := luaseriPack_error_iff cyclic [.table 0] (fun _ _ _ => rfl)
  have obstructed : ∃ depth value, Reaches cyclic [.table 0] depth value ∧ Obstructs depth value :=
    ⟨33, .table 0, cyclic_reaches 33, Or.inl (Nat.le_refl 33)⟩
  exact ⟨either.1.mpr obstructed, fun packed => either.2.mp packed obstructed⟩

end EasyLua.Seri
