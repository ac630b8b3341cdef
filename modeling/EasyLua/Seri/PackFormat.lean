import EasyLua.Seri.Format
import EasyLua.Seri.Pack

/-!
# The packer writes the format

A chain of write blocks that holds some bytes holds, after a value has been packed,
those bytes followed by the encoding of the value. The `int`s of the packer are exact
because no length or array size exceeds the length of the encoding.
-/

namespace EasyLua.Seri

open Format

/-- A packing step succeeds, and its chain holds these bytes. -/
def Packs (result : Except String WriteBlock) (bytes : Bytes) : Prop :=
  ∃ wb, result = .ok wb ∧ wb.Holds bytes

/-! ## Headers and scalars -/

theorem combineType_header : ∀ (type : Fin 8) (cookie : Fin 32),
    combineType type cookie = header type cookie := by
  decide +kernel

theorem combineType_eq {type cookie : Nat} (small : type < 8) (fits : cookie < 32) :
    combineType type cookie = header type cookie :=
  combineType_header ⟨type, small⟩ ⟨cookie, fits⟩

/-- The low bytes of a number in a narrower type. -/
theorem encode_setWidth (count : Nat) (v : BitVec 64) :
    LittleEndian.encode count (v.setWidth (8 * count)).toNat =
      LittleEndian.encode count v.toNat := by
  rw [BitVec.toNat_setWidth, Nat.pow_mul]
  exact LittleEndian.encode_mod count v.toNat

/-- `v == (int32_t)v`. -/
theorem eq_signExtend_iff (v : BitVec 64) :
    v = (v.setWidth 32).signExtend 64 ↔ -2 ^ 31 ≤ v.toInt ∧ v.toInt < 2 ^ 31 := by
  rw [← BitVec.toInt_inj, BitVec.toInt_signExtend_of_le (by omega), BitVec.toInt_setWidth,
    Int.bmod_def]
  have range := BitVec.toInt_eq_toNat_cond v
  have bound := v.isLt
  split at range <;> omega

/-- The branches of `wb_integer` are those of the format. -/
theorem wbInteger_holds {wb : WriteBlock} {bytes : Bytes} (holds : wb.Holds bytes)
    (v : BitVec 64) : (wbInteger wb v).Holds (bytes ++ encodeInteger v) := by
  have zero : v = 0 ↔ v.toInt = 0 := by
    rw [← BitVec.toInt_inj]
    rfl
  have exact_ := eq_signExtend_iff v
  have two (cookie : Nat) (fits : cookie < 32) (data : Bytes) :
      ((wb.push [combineType TYPE_NUMBER cookie]).push data).Holds
        (bytes ++ header 2 cookie :: data) := by
    have pushed := (holds.push [combineType TYPE_NUMBER cookie]).push data
    rw [combineType_eq (by decide) fits] at pushed ⊢
    rw [List.append_assoc] at pushed
    exact pushed
  unfold wbInteger encodeInteger
  by_cases isZero : v.toInt = 0
  · rw [if_pos (zero.mpr isZero), if_pos isZero]
    exact holds.push [combineType TYPE_NUMBER TYPE_NUMBER_ZERO]
  rw [if_neg (zero.not.mpr isZero), if_neg isZero]
  by_cases wide : v.toInt < -2 ^ 31 ∨ 2 ^ 31 ≤ v.toInt
  · rw [if_pos (exact_.not.mpr (by omega)), if_pos wide]
    exact two 6 (by omega) _
  rw [if_neg (not_not.mpr (exact_.mpr (by omega))), if_neg wide]
  by_cases negative : v.toInt < 0
  · rw [if_pos negative, if_neg (by omega), if_neg (by omega), encode_setWidth 4]
    exact two 4 (by omega) _
  rw [if_neg negative]
  by_cases byte : v.toInt < 0x100
  · rw [if_pos byte, if_pos (by omega), encode_setWidth 1]
    exact two 1 (by omega) _
  rw [if_neg byte, if_neg (show ¬ (0 < v.toInt ∧ v.toInt < 2 ^ 8) by omega)]
  by_cases word : v.toInt < 0x10000
  · rw [if_pos word, if_pos (by omega), encode_setWidth 2]
    exact two 2 (by omega) _
  · rw [if_neg word, if_neg (by omega), encode_setWidth 4]
    exact two 4 (by omega) _

/-- The branches of `wb_string` for a length that is an `int`. -/
theorem wbString_holds {wb : WriteBlock} {bytes str : Bytes} (holds : wb.Holds bytes)
    (small : str.length < 2 ^ 31) :
    (wbString wb str (toInt str.length)).Holds (bytes ++ encodeString str) := by
  rw [toInt_natCast small]
  unfold wbString encodeString MAX_COOKIE
  by_cases short : str.length < 32
  · rw [if_pos (by omega), if_pos short]
    have pushed := holds.push [combineType TYPE_SHORT_STRING str.length]
    rw [combineType_eq (by decide) short] at pushed ⊢
    by_cases some_ : (str.length : Int) > 0
    · simp only [if_pos some_, Int.toNat_natCast, List.take_length]
      have both := pushed.push str
      rw [List.append_assoc] at both
      exact both
    · have empty : str = [] := List.length_eq_zero_iff.mp (by omega)
      simp only [if_neg some_]
      subst empty
      exact pushed
  rw [if_neg (by omega), if_neg short]
  have three (cookie : Nat) (fits : cookie < 32) (length : Bytes) :
      (((wb.push [combineType TYPE_LONG_STRING cookie]).push length).push str).Holds
        (bytes ++ (header 5 cookie :: length ++ str)) := by
    have pushed := ((holds.push [combineType TYPE_LONG_STRING cookie]).push length).push str
    rw [combineType_eq (by decide) fits] at pushed ⊢
    rw [List.append_assoc, List.append_assoc] at pushed
    exact pushed
  simp only [Int.toNat_natCast, List.take_length]
  by_cases word : str.length < 2 ^ 16
  · rw [if_pos (by omega), if_pos word]
    exact three 2 (by omega) _
  · rw [if_neg (by omega), if_neg word]
    exact three 4 (by omega) _

/-! ## The length of an encoding -/

theorem length_encodeString (str : Bytes) : str.length ≤ (encodeString str).length := by
  unfold encodeString
  split
  · exact Nat.le_add_right _ _
  · split <;> simp <;> omega

theorem encodeInteger_pos (v : BitVec 64) : 0 < (encodeInteger v).length := by
  unfold encodeInteger
  repeat' split
  all_goals exact Nat.succ_pos _

theorem encodeScalar_pos : ∀ scalar, 0 < (encodeScalar scalar).length
  | .boolean _ => Nat.succ_pos _
  | .integer value => encodeInteger_pos value
  | .number _ => Nat.succ_pos _
  | .lightUserdata _ => Nat.succ_pos _
  | .string str => by
      change 0 < (encodeString str).length
      unfold encodeString
      repeat' split
      all_goals exact Nat.succ_pos _

/-- A value that can be packed has at least one byte. -/
theorem encodeOne_pos {heap : Heap} {levels : Nat} {value : LuaValue}
    (packable : Packable heap levels value) : 0 < (encodeOne heap levels value).length := by
  cases levels with
  | zero => exact packable.elim
  | succ levels =>
      cases value with
      | nil => exact Nat.succ_pos _
      | scalar scalar => exact encodeScalar_pos scalar
      | table ref =>
          simp only [encodeOne]
          split <;> simp
      | unsupported typename ref => exact packable.elim

/-- A list is no longer than what its elements are mapped to. -/
theorem length_le_flatMap {α : Type} (encode : α → Bytes) {items : List α}
    (positive : ∀ item ∈ items, 0 < (encode item).length) :
    items.length ≤ (items.flatMap encode).length := by
  induction items with
  | nil => exact Nat.le_refl 0
  | cons item items ih =>
      have first := positive item List.mem_cons_self
      have rest := ih fun other member => positive other (List.mem_cons_of_mem item member)
      simp only [List.flatMap_cons, List.length_append, List.length_cons]
      omega

theorem length_le_of_mem_flatMap {α : Type} (encode : α → Bytes) {items : List α} {item : α}
    (member : item ∈ items) : (encode item).length ≤ (items.flatMap encode).length := by
  obtain ⟨before, after, rfl⟩ := List.append_of_mem member
  simp only [List.flatMap_append, List.flatMap_cons, List.length_append]
  omega

/-- The bytes of a key or a value are among those of the entries. -/
theorem length_le_of_mem_entries (encode : LuaValue → Bytes)
    {entries : List (LuaValue × LuaValue)} {entry : LuaValue × LuaValue} (member : entry ∈ entries)
    {value : LuaValue} (which : value = entry.1 ∨ value = entry.2) :
    (encode value).length ≤
      (entries.flatMap fun entry => encode entry.1 ++ encode entry.2).length := by
  have within := length_le_of_mem_flatMap (fun entry : LuaValue × LuaValue =>
    encode entry.1 ++ encode entry.2) member
  rw [List.length_append] at within
  rcases which with rfl | rfl <;> omega

/-! ## Tables -/

/-- A loop that packs items packs their encodings one after the other. -/
theorem packs_foldlM {α : Type} {step : WriteBlock → α → Except String WriteBlock}
    (encode : α → Bytes) {items : List α} {wb : WriteBlock} {bytes : Bytes}
    (one : ∀ item ∈ items, ∀ wb bytes, wb.Holds bytes → Packs (step wb item) (bytes ++ encode item))
    (holds : wb.Holds bytes) :
    Packs (items.foldlM step wb) (bytes ++ items.flatMap encode) := by
  induction items generalizing wb bytes with
  | nil =>
      rw [List.flatMap_nil, List.append_nil]
      exact ⟨wb, rfl, holds⟩
  | cons item items ih =>
      obtain ⟨next, packed, holdsNext⟩ := one item List.mem_cons_self wb bytes holds
      obtain ⟨last, rest, holdsLast⟩ :=
        ih (fun other member => one other (List.mem_cons_of_mem item member)) holdsNext
      refine ⟨last, ?_, ?_⟩
      · rw [List.foldlM_cons, packed]
        exact rest
      · rw [List.flatMap_cons, ← List.append_assoc]
        exact holdsLast

/-- A chain of two packing steps. -/
theorem Packs.bind {result : Except String WriteBlock} {bytes more : Bytes}
    {next : WriteBlock → Except String WriteBlock} (first : Packs result bytes)
    (second : ∀ wb, wb.Holds bytes → Packs (next wb) (bytes ++ more)) :
    Packs (result >>= next) (bytes ++ more) := by
  obtain ⟨wb, rfl, holds⟩ := first
  exact second wb holds

theorem tableHeader_holds {wb : WriteBlock} {bytes : Bytes} (holds : wb.Holds bytes)
    {border : Nat} (small : border < 2 ^ 31) :
    (if toInt border ≥ MAX_COOKIE - 1 then
      wbInteger (wb.push [combineType TYPE_TABLE (MAX_COOKIE - 1)]) (BitVec.ofInt 64 (toInt border))
    else wb.push [combineType TYPE_TABLE (toInt border)]).Holds
      (bytes ++ encodeTableHeader border) := by
  rw [toInt_natCast small]
  unfold encodeTableHeader MAX_COOKIE
  by_cases short : border < 31
  · rw [if_neg (by omega), if_pos short, combineType_eq (by decide) (by omega)]
    exact holds.push _
  · rw [if_pos (by omega), if_neg short, BitVec.ofInt_natCast]
    have pushed := wbInteger_holds (holds.push [combineType TYPE_TABLE (31 : Nat)])
      (BitVec.ofNat 64 border)
    rw [combineType_eq (by decide) (by omega), List.append_assoc] at pushed
    exact pushed

/-- The header and the array fields. -/
theorem wbTableArray_packs {packOne : PackOne} {encode : LuaValue → Bytes} {table : LuaTable}
    {wb : WriteBlock} {bytes : Bytes}
    (one : ∀ field ∈ arrayFields table, ∀ wb bytes, wb.Holds bytes →
      Packs (packOne wb field) (bytes ++ encode field))
    (small : table.border < 2 ^ 31) (holds : wb.Holds bytes) :
    ∃ after, wbTableArray packOne wb table = .ok (after, (table.border : Int)) ∧
      after.Holds (bytes ++ encodeTableHeader table.border ++
        (arrayFields table).flatMap encode) := by
  obtain ⟨after, packed, holdsAfter⟩ := packs_foldlM encode one (tableHeader_holds holds small)
  refine ⟨after, ?_, holdsAfter⟩
  unfold arrayFields at packed
  rw [List.foldlM_map] at packed
  unfold wbTableArray
  simp only [toInt_natCast small, Int.toNat_natCast] at packed ⊢
  rw [packed]
  rfl

/-- A key and its value. -/
theorem packs_entry {packOne : PackOne} {encode : LuaValue → Bytes}
    {entry : LuaValue × LuaValue}
    (key : ∀ wb bytes, wb.Holds bytes → Packs (packOne wb entry.1) (bytes ++ encode entry.1))
    (value : ∀ wb bytes, wb.Holds bytes → Packs (packOne wb entry.2) (bytes ++ encode entry.2))
    (wb : WriteBlock) (bytes : Bytes) (holds : wb.Holds bytes) :
    Packs (do
      let wb ← packOne wb entry.1
      packOne wb entry.2) (bytes ++ (encode entry.1 ++ encode entry.2)) := by
  rw [← List.append_assoc]
  exact (key wb bytes holds).bind fun wb holds => value wb _ holds

/-- The closing nil. -/
theorem packs_wbNil {result : Except String WriteBlock} {bytes : Bytes}
    (packs : Packs result bytes) :
    Packs (do
      let wb ← result
      return wbNil wb) (bytes ++ [header 0 0]) :=
  packs.bind fun _ holds => ⟨_, rfl, holds.push _⟩

/-- The entries outside the array part and the closing nil. -/
theorem wbTableHash_packs {packOne : PackOne} {encode : LuaValue → Bytes} {table : LuaTable}
    {wb : WriteBlock} {bytes : Bytes}
    (one : ∀ entry ∈ hashEntries table, ∀ value, value = entry.1 ∨ value = entry.2 →
      ∀ wb bytes, wb.Holds bytes → Packs (packOne wb value) (bytes ++ encode value))
    (holds : wb.Holds bytes) :
    Packs (wbTableHash packOne wb table table.border)
      (bytes ++ (hashEntries table).flatMap (fun entry => encode entry.1 ++ encode entry.2) ++
        [header 0 0]) := by
  have packed := packs_foldlM (fun entry => encode entry.1 ++ encode entry.2)
    (fun entry member => packs_entry (one entry member entry.1 (Or.inl rfl))
      (one entry member entry.2 (Or.inr rfl))) holds
  have skip : (fun wb (entry : LuaValue × LuaValue) =>
      if entry.1.inArray table.border then pure wb
      else do
        let wb ← packOne wb entry.1
        packOne wb entry.2) =
      fun wb entry => if !Format.inArray table.border entry.1 then (do
        let wb ← packOne wb entry.1
        packOne wb entry.2) else pure wb := by
    funext wb entry
    change (if Format.inArray table.border entry.1 then _ else _) = _
    cases Format.inArray table.border entry.1 <;> rfl
  unfold hashEntries at packed
  rw [List.foldlM_filter, ← skip] at packed
  exact packs_wbNil packed

/-- The pairs that an iterator yields, between the header of a table without array fields
and the closing nil. -/
theorem wbTableMetapairs_packs {packOne : PackOne} {encode : LuaValue → Bytes}
    {pairs : List (LuaValue × LuaValue)} {wb : WriteBlock} {bytes : Bytes}
    (one : ∀ pair ∈ pairs, ∀ value, value = pair.1 ∨ value = pair.2 →
      ∀ wb bytes, wb.Holds bytes → Packs (packOne wb value) (bytes ++ encode value))
    (holds : wb.Holds bytes) :
    Packs (wbTableMetapairs packOne wb pairs)
      (bytes ++ encodeTableHeader 0 ++
        pairs.flatMap (fun pair => encode pair.1 ++ encode pair.2) ++ [header 0 0]) :=
  packs_wbNil <| packs_foldlM (fun pair => encode pair.1 ++ encode pair.2)
    (fun pair member => packs_entry (one pair member pair.1 (Or.inl rfl))
      (one pair member pair.2 (Or.inr rfl))) (holds.push _)

/-! ## Values -/

theorem packOne_scalar {heap : Heap} {levels : Nat} {wb : WriteBlock} {bytes : Bytes}
    (holds : wb.Holds bytes) :
    ∀ scalar, (encodeScalar scalar).length < 2 ^ 31 →
      Packs (packOne heap (levels + 1) wb (.scalar scalar)) (bytes ++ encodeScalar scalar)
  | .boolean true, _ => ⟨_, rfl, holds.push _⟩
  | .boolean false, _ => ⟨_, rfl, holds.push _⟩
  | .integer value, _ => ⟨_, rfl, wbInteger_holds holds value⟩
  | .number bits, _ => ⟨_, rfl, by
      have pushed := (holds.push [combineType TYPE_NUMBER (TYPE_NUMBER_REAL : Nat)]).push
        (LittleEndian.encode 8 bits.toNat)
      rw [List.append_assoc] at pushed
      exact pushed⟩
  | .lightUserdata pointer, _ => ⟨_, rfl, by
      have pushed := (holds.push [combineType TYPE_USERDATA 0]).push
        (LittleEndian.encode 8 pointer.toNat)
      rw [List.append_assoc] at pushed
      exact pushed⟩
  | .string str, small =>
      ⟨_, rfl, wbString_holds holds (Nat.lt_of_le_of_lt (length_encodeString str) small)⟩

/-- The keys and values of entries are packed if all values on this level are. -/
theorem packOne_entries {heap : Heap} {levels : Nat} {entries : List (LuaValue × LuaValue)}
    (one : ∀ value, Packable heap levels value → (encodeOne heap levels value).length < 2 ^ 31 →
      ∀ wb bytes, wb.Holds bytes →
        Packs (packOne heap levels wb value) (bytes ++ encodeOne heap levels value))
    (packable : ∀ entry ∈ entries, Packable heap levels entry.1 ∧ Packable heap levels entry.2)
    (small : (entries.flatMap fun entry =>
      encodeOne heap levels entry.1 ++ encodeOne heap levels entry.2).length < 2 ^ 31) :
    ∀ entry ∈ entries, ∀ value, value = entry.1 ∨ value = entry.2 →
      ∀ wb bytes, wb.Holds bytes →
        Packs (packOne heap levels wb value) (bytes ++ encodeOne heap levels value) := by
  intro entry member value which
  have within := length_le_of_mem_entries (encodeOne heap levels) member which
  have fine : Packable heap levels value := by
    rcases which with rfl | rfl
    · exact (packable entry member).1
    · exact (packable entry member).2
  exact one value fine (Nat.lt_of_le_of_lt within small)

/-- The raw contents of a table are packed if all values one level down are. -/
theorem wbTableRaw_packs {heap : Heap} {levels : Nat} {source : LuaTable}
    (one : ∀ value, Packable heap levels value → (encodeOne heap levels value).length < 2 ^ 31 →
      ∀ wb bytes, wb.Holds bytes →
        Packs (packOne heap levels wb value) (bytes ++ encodeOne heap levels value))
    (fields : ∀ field ∈ arrayFields source, Packable heap levels field)
    (entries : ∀ entry ∈ hashEntries source,
      Packable heap levels entry.1 ∧ Packable heap levels entry.2)
    (small : (encodeTableHeader source.border ++
      (arrayFields source).flatMap (encodeOne heap levels) ++
      (hashEntries source).flatMap (fun entry =>
        encodeOne heap levels entry.1 ++ encodeOne heap levels entry.2) ++
      [header 0 0]).length < 2 ^ 31)
    {wb : WriteBlock} {bytes : Bytes} (holds : wb.Holds bytes) :
    Packs (do
        let (wb, arraySize) ← wbTableArray (packOne heap levels) wb source
        wbTableHash (packOne heap levels) wb source arraySize)
      (bytes ++ (encodeTableHeader source.border ++
        (arrayFields source).flatMap (encodeOne heap levels) ++
        (hashEntries source).flatMap (fun entry =>
          encodeOne heap levels entry.1 ++ encodeOne heap levels entry.2) ++
        [header 0 0])) := by
  simp only [List.length_append] at small
  have border := length_le_flatMap (encodeOne heap levels) fun field member =>
    encodeOne_pos (fields field member)
  rw [length_arrayFields] at border
  have array : ∀ field ∈ arrayFields source, ∀ wb bytes, wb.Holds bytes →
      Packs (packOne heap levels wb field) (bytes ++ encodeOne heap levels field) := by
    intro field member
    have within := length_le_of_mem_flatMap (encodeOne heap levels) member
    exact one field (fields field member) (by omega)
  obtain ⟨after, packed, holdsAfter⟩ := wbTableArray_packs array (by omega) holds
  simp only [packed, ← List.append_assoc]
  exact wbTableHash_packs (packOne_entries one entries (by omega)) holdsAfter

/-- **Packing a value appends its encoding**, by induction on the levels that are left. -/
theorem packOne_packs (heap : Heap) (levels : Nat) (value : LuaValue)
    (packable : Packable heap levels value)
    (small : (encodeOne heap levels value).length < 2 ^ 31) (wb : WriteBlock) (bytes : Bytes)
    (holds : wb.Holds bytes) :
    Packs (packOne heap levels wb value) (bytes ++ encodeOne heap levels value) := by
  induction levels generalizing value wb bytes with
  | zero => exact packable.elim
  | succ levels ih =>
      cases value with
      | nil => exact ⟨_, rfl, holds.push _⟩
      | scalar scalar => exact packOne_scalar holds scalar small
      | unsupported typename ref => exact packable.elim
      | table ref =>
          change Packs (wbTable (packOne heap levels) wb (heap ref)) _
          unfold wbTable
          simp only [encodeOne, Packable] at packable small ⊢
          cases pairs : (heap ref).pairs with
          | some pairs =>
              simp only [pairs] at packable small ⊢
              simp only [List.length_append] at small
              simp only [← List.append_assoc]
              exact wbTableMetapairs_packs (packOne_entries ih packable (by omega)) holds
          | none =>
              simp only [pairs] at packable small ⊢
              exact wbTableRaw_packs ih packable.1 packable.2 small holds

/-- **`luaseri_pack` returns the encoding of its arguments and its length.** -/
theorem luaseriPack_eq (heap : Heap) (values : List LuaValue)
    (packable : ∀ value ∈ values, Packable heap (MAX_DEPTH + 1) value)
    (small : (encode heap (MAX_DEPTH + 1) values).length < 2 ^ 31) :
    luaseriPack heap values = .ok (encode heap (MAX_DEPTH + 1) values,
      ((encode heap (MAX_DEPTH + 1) values).length : Int)) := by
  have one : ∀ value ∈ values, ∀ wb bytes, wb.Holds bytes →
      Packs (packOne heap (MAX_DEPTH + 1) wb value)
        (bytes ++ encodeOne heap (MAX_DEPTH + 1) value) := by
    intro value member
    have within := length_le_of_mem_flatMap (encodeOne heap (MAX_DEPTH + 1)) member
    exact packOne_packs heap _ value (packable value member) (Nat.lt_of_le_of_lt within small)
  obtain ⟨wb, packed, holds⟩ :=
    packs_foldlM (encodeOne heap (MAX_DEPTH + 1)) one WriteBlock.init_holds
  rw [List.nil_append] at holds
  unfold luaseriPack packFrom
  rw [packed]
  change Except.ok (seri wb.blocks wb.len, (wb.len : Int)) = _
  rw [holds.seri, holds.len]
  rfl

end EasyLua.Seri
