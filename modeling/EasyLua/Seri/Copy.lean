import EasyLua.Seri.Bounds
import EasyLua.Seri.ParseFormat

/-!
# The copy that a round trip makes

What a value becomes when it is packed and unpacked again, computed on the value itself:
every table is rebuilt by raw sets, a table with a `__pairs` metafield from the pairs that
its iterator yields. The copy is defined for all values that can be packed, with tables as
keys and `__pairs` at any depth, and parsing the encoding of a value returns its copy.
-/

namespace EasyLua.Seri

open Format

/-- A key that `lua_rawset` accepts. -/
def Data.IsKey : Data → Prop
  | .nil => False
  | .scalar key => key.isNaN = false
  | .table _ _ => True

/-- `lua_rawset` under a key that it accepts. -/
def NewTable.set (table : NewTable) (key value : Data) : NewTable :=
  match key with
  | .nil => table
  | .scalar key => { table with fields := (key.toKey, value) :: table.fields }
  | .table fields byTable =>
      { table with byTable := (.table fields byTable, value) :: table.byTable }

theorem NewTable.rawset_eq (table : NewTable) {key : Data} (isKey : key.IsKey) (value : Data) :
    table.rawset key value = .ok (table.set key value) := by
  cases key with
  | nil => exact isKey.elim
  | scalar key =>
      have number : key.isNaN = false := isKey
      unfold NewTable.rawset
      simp only [number]
      rfl
  | table fields byTable => rfl

/-- Raw sets of copied pairs, in order. -/
def setAll (copy : LuaValue → Data) (table : NewTable) (pairs : List (LuaValue × LuaValue)) :
    NewTable :=
  pairs.foldl (fun table pair => table.set (copy pair.1) (copy pair.2)) table

/-- Raw sets of copied array fields, `count` of them from the index `start + 1` on. -/
def setArray (copy : LuaValue → Data) (source : LuaTable) (start count : Nat) (table : NewTable) :
    NewTable :=
  (List.range' start count).foldl
    (fun table (i : Nat) => table.rawseti (i + 1) (copy (source.rawgeti (i + 1)))) table

/-- The copy of a value with at most so many levels. Nothing is said about values that cannot
be packed. -/
def copyOne (heap : Heap) : Nat → LuaValue → Data
  | 0, _ => .nil
  | levels + 1, value =>
      match value with
      | .nil => .nil
      | .scalar scalar => .scalar scalar
      | .table ref =>
          match (heap ref).pairs with
          | none =>
              (setAll (copyOne heap levels)
                (setArray (copyOne heap levels) (heap ref) 0 (heap ref).border .empty)
                (hashEntries (heap ref))).toData
          | some pairs => (setAll (copyOne heap levels) .empty pairs).toData
      | .unsupported _ _ => .nil

/-- A key that an iterator may yield: it is not nil, and no table refuses it. -/
def LuaValue.IsPairKey : LuaValue → Prop
  | .nil => False
  | .scalar key => key.isNaN = false
  | _ => True

/-- A value that can be packed and unpacked again, with at most so many levels. -/
def Copyable (heap : Heap) : Nat → LuaValue → Prop
  | 0, _ => False
  | levels + 1, value =>
      match value with
      | .nil => True
      | .scalar _ => True
      | .table ref =>
          match (heap ref).pairs with
          | none => ∀ entry ∈ (heap ref).entries,
              Copyable heap levels entry.1 ∧ Copyable heap levels entry.2
          | some pairs => ∀ pair ∈ pairs,
              pair.1.IsPairKey ∧ Copyable heap levels pair.1 ∧ Copyable heap levels pair.2
      | .unsupported _ _ => False

variable {heap : Heap} {levels : Nat}

theorem Copyable.nil {value : LuaValue} (copyable : Copyable heap levels value) :
    Copyable heap levels .nil := by
  cases levels with
  | zero => exact copyable.elim
  | succ levels => trivial

/-- A field of a table with an array part is copyable, whether it is there or not. -/
theorem Copyable.rawgeti {source : LuaTable}
    (entries : ∀ entry ∈ source.entries,
      Copyable heap levels entry.1 ∧ Copyable heap levels entry.2)
    (border : source.border ≠ 0) (i : Int) : Copyable heap levels (source.rawgeti i) := by
  rcases source.get_cases (index i) with hole | entry
  · have top : source.get (index source.border) ≠ .nil := source.border_le.resolve_left border
    have last := (source.get_cases (index source.border)).resolve_left top
    unfold LuaTable.rawgeti
    rw [hole]
    exact (entries _ last).2.nil
  · exact (entries _ entry).2

theorem Copyable.field {source : LuaTable}
    (entries : ∀ entry ∈ source.entries,
      Copyable heap levels entry.1 ∧ Copyable heap levels entry.2)
    {field : LuaValue} (member : field ∈ arrayFields source) :
    Copyable heap levels field := by
  obtain ⟨i, below, rfl⟩ := List.mem_map.mp member
  refine Copyable.rawgeti entries (fun zero => ?_) _
  rw [zero] at below
  exact absurd (List.mem_range.mp below) (Nat.not_lt_zero i)

/-- What is copyable can be packed. -/
theorem Copyable.packable {value : LuaValue} (copyable : Copyable heap levels value) :
    Packable heap levels value := by
  induction levels generalizing value with
  | zero => exact copyable
  | succ levels ih =>
      cases value with
      | nil => trivial
      | scalar scalar => trivial
      | unsupported typename ref => exact copyable
      | table ref =>
          simp only [Copyable, Packable] at copyable ⊢
          cases pairs : (heap ref).pairs with
          | some pairs =>
              simp only [pairs] at copyable ⊢
              exact fun pair member =>
                ⟨ih (copyable pair member).2.1, ih (copyable pair member).2.2⟩
          | none =>
              simp only [pairs] at copyable ⊢
              refine ⟨fun field member => ih (Copyable.field copyable member),
                fun entry member => ?_⟩
              have inside := List.mem_of_mem_filter member
              exact ⟨ih (copyable entry inside).1, ih (copyable entry inside).2⟩

/-- The copy of a key is a key. -/
theorem Copyable.isKey {key : LuaValue} (copyable : Copyable heap levels key)
    (isKey : key.IsPairKey) : (copyOne heap levels key).IsKey := by
  cases levels with
  | zero => exact copyable.elim
  | succ levels =>
      cases key with
      | nil => exact isKey.elim
      | scalar key => exact isKey
      | unsupported typename ref => exact copyable.elim
      | table ref =>
          simp only [copyOne]
          split <;> trivial

theorem LuaValue.IsKey.isPairKey {key : LuaValue} (isKey : key.IsKey) : key.IsPairKey := by
  cases key with
  | nil => exact isKey
  | scalar key => exact isKey.1
  | table ref => trivial
  | unsupported typename ref => trivial

/-! ## Parsing -/

/-- The parser reads the copy of a value from its encoding, and leaves what follows. -/
def ReadsCopy (one : ByteParser Data) (encode : LuaValue → Bytes) (copy : LuaValue → Data)
    (value : LuaValue) : Prop :=
  ∀ rest, one (encode value ++ rest) = .ok (copy value, rest)

section Loops

variable {one : ByteParser Data} {encode : LuaValue → Bytes} {copy : LuaValue → Data}

theorem parseArray_copies {source : LuaTable} (count start : Nat) (table : NewTable)
    (reads : ∀ j ∈ List.range' start count, ReadsCopy one encode copy (source.rawgeti (j + 1)))
    (rest : Bytes) :
    parseArray one count (start + 1) table
        (((List.range' start count).map fun j : Nat => source.rawgeti (j + 1)).flatMap encode ++
          rest) =
      .ok (setArray copy source start count table, rest) := by
  induction count generalizing start table with
  | zero => rfl
  | succ count ih =>
      unfold setArray
      rw [List.range'_succ] at reads ⊢
      have first := reads start List.mem_cons_self
      have later := ih (start + 1)
        (table.rawseti (start + 1) (copy (source.rawgeti (start + 1))))
        fun j member => reads j (List.mem_cons_of_mem start member)
      rw [List.map_cons, List.flatMap_cons, List.append_assoc]
      unfold parseArray
      rw [Parser.bind_run_of_ok (first _)]
      exact later

theorem parseHash_copies (closes : ∀ rest, one (header 0 0 :: rest) = .ok (.nil, rest))
    (pairs : List (LuaValue × LuaValue)) (isKey : ∀ pair ∈ pairs, (copy pair.1).IsKey)
    (reads : ∀ pair ∈ pairs, ReadsCopy one encode copy pair.1 ∧ ReadsCopy one encode copy pair.2)
    (fuel : Nat) (enough : pairs.length < fuel) (table : NewTable) (rest : Bytes) :
    parseHash one fuel table
        (pairs.flatMap (fun pair => encode pair.1 ++ encode pair.2) ++ header 0 0 :: rest) =
      .ok ((setAll copy table pairs).toData, rest) := by
  induction pairs generalizing fuel table with
  | nil =>
      obtain ⟨fuel, rfl⟩ : ∃ less, fuel = less + 1 := Nat.exists_eq_add_one.mpr enough
      unfold parseHash
      rw [List.flatMap_nil, List.nil_append, Parser.bind_run_of_ok (closes rest)]
      rfl
  | cons pair pairs ih =>
      obtain ⟨fuel, rfl⟩ : ∃ less, fuel = less + 1 :=
        Nat.exists_eq_add_one.mpr (Nat.zero_lt_of_lt enough)
      obtain ⟨readKey, readValue⟩ := reads pair List.mem_cons_self
      have key := isKey pair List.mem_cons_self
      have set := table.rawset_eq key (copy pair.2)
      have later := ih (fun other member => isKey other (List.mem_cons_of_mem pair member))
        (fun other member => reads other (List.mem_cons_of_mem pair member)) fuel
        (Nat.lt_of_succ_lt_succ enough) (table.set (copy pair.1) (copy pair.2))
      have whole : setAll copy table (pair :: pairs) =
          setAll copy (table.set (copy pair.1) (copy pair.2)) pairs := rfl
      rw [List.flatMap_cons, List.append_assoc, List.append_assoc, whole]
      unfold parseHash
      rw [Parser.bind_run_of_ok (readKey _)]
      generalize copy pair.1 = copied at *
      cases copied with
      | nil => exact key.elim
      | scalar _ | table _ _ =>
          simp only
          rw [Parser.bind_run_of_ok (readValue _)]
          simp only [set]
          exact later

end Loops

/-- A value that fits in its bound reads back as its copy. -/
abbrev CopiesBelow (heap : Heap) (levels fuel : Nat) (value : LuaValue) : Prop :=
  ReadsCopy (parseOne fuel) (encodeOne heap levels) (copyOne heap levels) value

/-- The components of pairs are copyable, shorter than all pairs together, and so read back
as their copies. -/
theorem pairs_copies {pairs : List (LuaValue × LuaValue)} {limit fuel : Nat}
    (one : ∀ value, Copyable heap levels value → (encodeOne heap levels value).length ≤ limit →
      CopiesBelow heap levels fuel value)
    (copyable : ∀ pair ∈ pairs, Copyable heap levels pair.1 ∧ Copyable heap levels pair.2)
    (below : (pairs.flatMap fun pair =>
      encodeOne heap levels pair.1 ++ encodeOne heap levels pair.2).length ≤ limit) :
    ∀ pair ∈ pairs, CopiesBelow heap levels fuel pair.1 ∧ CopiesBelow heap levels fuel pair.2 := by
  intro pair member
  have key := length_le_of_mem_entries (encodeOne heap levels) member (Or.inl rfl)
  have value := length_le_of_mem_entries (encodeOne heap levels) member (Or.inr rfl)
  exact ⟨one _ (copyable pair member).1 (by omega), one _ (copyable pair member).2 (by omega)⟩

/-- As many bytes as pairs are written at least. -/
theorem length_le_of_copyable {pairs : List (LuaValue × LuaValue)}
    (copyable : ∀ pair ∈ pairs, Copyable heap levels pair.1) :
    pairs.length ≤ (pairs.flatMap fun pair =>
      encodeOne heap levels pair.1 ++ encodeOne heap levels pair.2).length := by
  refine length_le_flatMap _ fun pair member => ?_
  rw [List.length_append]
  exact Nat.add_pos_left (encodeOne_pos (copyable pair member).packable) _

theorem parseOne_closing (fuel : Nat) (positive : 0 < fuel) (rest : Bytes) :
    parseOne fuel (header 0 0 :: rest) = .ok (.nil, rest) := by
  obtain ⟨less, rfl⟩ : ∃ less, fuel = less + 1 := Nat.exists_eq_add_one.mpr positive
  exact parseOne_header (by omega) (by omega)

/-- A table after its header: its array size, its array part, its pairs and the closing
nil. -/
theorem parseTable_copies {one : ByteParser Data} {encode : LuaValue → Bytes}
    {copy : LuaValue → Data} (source : LuaTable) {arraySize cookie fuel : Nat} {body : Bytes}
    (sizes : ∀ rest, parseArraySize cookie (body ++ rest) = .ok ((arraySize : Int), rest))
    (fields : ∀ j ∈ List.range' 0 arraySize,
      ReadsCopy one encode copy (source.rawgeti (j + 1)))
    (closes : ∀ rest, one (header 0 0 :: rest) = .ok (.nil, rest))
    {pairs : List (LuaValue × LuaValue)} (isKey : ∀ pair ∈ pairs, (copy pair.1).IsKey)
    (reads : ∀ pair ∈ pairs, ReadsCopy one encode copy pair.1 ∧ ReadsCopy one encode copy pair.2)
    (enough : pairs.length < fuel) (rest : Bytes) :
    parseTable fuel one cookie (body ++
        (((List.range' 0 arraySize).map fun j : Nat => source.rawgeti (j + 1)).flatMap encode ++
          (pairs.flatMap (fun pair => encode pair.1 ++ encode pair.2) ++ header 0 0 :: rest))) =
      .ok ((setAll copy (setArray copy source 0 arraySize .empty) pairs).toData, rest) := by
  have array := parseArray_copies arraySize 0 .empty fields
    (pairs.flatMap (fun pair => encode pair.1 ++ encode pair.2) ++ header 0 0 :: rest)
  simp only [Nat.cast_zero, zero_add] at array
  unfold parseTable
  rw [Parser.bind_run_of_ok (sizes _), Int.toNat_natCast, Parser.bind_run_of_ok array]
  exact parseHash_copies closes pairs isKey reads fuel enough _ rest

/-- The bytes of the raw contents of a table. -/
def encodeRaw (heap : Heap) (levels : Nat) (source : LuaTable) : Bytes :=
  encodeTableHeader source.border ++ ((arrayFields source).flatMap (encodeOne heap levels) ++
    ((hashEntries source).flatMap (fun entry =>
      encodeOne heap levels entry.1 ++ encodeOne heap levels entry.2) ++ [header 0 0]))

/-- The copy of the raw contents of a table. -/
def copyRaw (copy : LuaValue → Data) (source : LuaTable) : NewTable :=
  setAll copy (setArray copy source 0 source.border .empty) (hashEntries source)

/-- The raw contents of a table read back as their copy, if what is one level down does. -/
theorem parseOne_copies_raw {source : LuaTable}
    (copyable : ∀ entry ∈ source.entries,
      Copyable heap levels entry.1 ∧ Copyable heap levels entry.2)
    (small : (encodeRaw heap levels source).length < 2 ^ 31) {fuel : Nat}
    (enough : (encodeRaw heap levels source).length ≤ fuel)
    (one : ∀ limit < 2 ^ 31, limit < fuel → ∀ value, Copyable heap levels value →
      (encodeOne heap levels value).length ≤ limit → CopiesBelow heap levels fuel value)
    (rest : Bytes) :
    parseOne (fuel + 1) (encodeRaw heap levels source ++ rest) =
      .ok ((copyRaw (copyOne heap levels) source).toData, rest) := by
  unfold encodeRaw at small enough ⊢
  have fieldOk {field : LuaValue} (member : field ∈ arrayFields source) :=
    Copyable.field copyable member
  have border := length_le_flatMap (encodeOne heap levels) fun field member =>
    encodeOne_pos (fieldOk member).packable
  rw [length_arrayFields] at border
  simp only [List.length_append, List.length_singleton] at small enough
  obtain ⟨cookie, body, form, fits, sizes⟩ :=
    parseArraySize_encode (show source.border < 2 ^ 31 by omega)
  rw [form] at small enough ⊢
  rw [List.length_cons] at small enough
  have components (entry : LuaValue × LuaValue) (member : entry ∈ hashEntries source) :=
    copyable entry (List.mem_of_mem_filter member)
  have count := length_le_of_copyable fun entry member => (components entry member).1
  have reads := pairs_copies (one _ (by omega) (by omega)) components (Nat.le_refl _)
  have isKey (entry : LuaValue × LuaValue) (member : entry ∈ hashEntries source) :=
    (components entry member).1.isKey
      (source.isKey entry (List.mem_of_mem_filter member)).isPairKey
  have range : arrayFields source =
      (List.range' 0 source.border).map fun j : Nat => source.rawgeti (j + 1) := by
    rw [arrayFields, List.range_eq_range']
  have fields : ∀ j ∈ List.range' 0 source.border,
      CopiesBelow heap levels fuel (source.rawgeti (j + 1)) := by
    intro j member
    have inside : source.rawgeti (j + 1) ∈ arrayFields source :=
      range ▸ List.mem_map_of_mem member
    have within := length_le_of_mem_flatMap (encodeOne heap levels) inside
    exact one _ (by omega) (by omega) _ (fieldOk inside) within
  have rounds : (hashEntries source).length < fuel := by omega
  have table := parseTable_copies source sizes fields
    (parseOne_closing fuel (by omega)) isKey reads rounds rest
  rw [range, List.cons_append, List.cons_append, parseOne_header (by omega) fits]
  simp only [List.append_assoc, List.singleton_append]
  exact table

/-- **Parsing the encoding of a value returns its copy**, by induction on the levels. -/
theorem parseOne_copies (levels : Nat) (value : LuaValue) (copyable : Copyable heap levels value)
    (small : (encodeOne heap levels value).length < 2 ^ 31) (fuel : Nat)
    (enough : (encodeOne heap levels value).length < fuel) :
    CopiesBelow heap levels fuel value := by
  induction levels generalizing value fuel with
  | zero => exact copyable.elim
  | succ levels ih =>
      obtain ⟨fuel, rfl⟩ : ∃ less, fuel = less + 1 :=
        Nat.exists_eq_add_one.mpr (Nat.zero_lt_of_lt enough)
      have one (limit : Nat) (small : limit < 2 ^ 31) (enough : limit < fuel) (value : LuaValue)
          (copyable : Copyable heap levels value)
          (below : (encodeOne heap levels value).length ≤ limit) :
          CopiesBelow heap levels fuel value :=
        ih value copyable (by omega) fuel (by omega)
      intro rest
      cases value with
      | nil => exact parseOne_header (by omega) (by omega)
      | scalar scalar => exact parseOne_scalar scalar small
      | unsupported typename ref => exact copyable.elim
      | table ref =>
          cases isPairs : (heap ref).pairs with
          | some pairs =>
              simp only [Copyable, encodeOne, copyOne, isPairs] at copyable small enough ⊢
              obtain ⟨cookie, body, form, fits, sizes⟩ :=
                parseArraySize_encode (show 0 < 2 ^ 31 by omega)
              rw [form] at small enough ⊢
              simp only [List.length_append, List.length_cons, List.length_nil] at small enough
              have components (pair : LuaValue × LuaValue) (member : pair ∈ pairs) :=
                (copyable pair member).2
              have count := length_le_of_copyable fun pair member => (components pair member).1
              have reads := pairs_copies (one _ (by omega) (by omega)) components (Nat.le_refl _)
              have isKey (pair : LuaValue × LuaValue) (member : pair ∈ pairs) :=
                (components pair member).1.isKey (copyable pair member).1
              have rounds : pairs.length < fuel := by omega
              have noFields : ∀ j ∈ List.range' 0 0,
                  CopiesBelow heap levels fuel ((heap ref).rawgeti (j + 1)) :=
                fun _ member => absurd member List.not_mem_nil
              have table := parseTable_copies (heap ref) sizes noFields
                (parseOne_closing fuel (by omega)) isKey reads rounds rest
              rw [List.cons_append, List.cons_append, List.cons_append,
                parseOne_header (by omega) fits]
              simp only [List.append_assoc, List.singleton_append]
              exact table
          | none =>
              have bytes : encodeOne heap (levels + 1) (.table ref) =
                  encodeRaw heap levels (heap ref) := by
                simp only [encodeOne, isPairs, List.append_assoc]
                rfl
              rw [bytes] at small enough ⊢
              simp only [Copyable, copyOne, isPairs] at copyable ⊢
              exact parseOne_copies_raw copyable small (Nat.le_of_lt_succ enough) one rest

end EasyLua.Seri
