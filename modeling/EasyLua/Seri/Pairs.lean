import EasyLua.Seri.RoundTrip
import EasyLua.Seri.Stack

/-!
# Tables with a `__pairs` metafield

Such a table is packed from the pairs that its iterator yields, all of them as a hash part.
It is unpacked to the table that the raw sets of these pairs make. When they are the raw
contents of the table, that is what its raw contents are unpacked to when they are packed as
an array part and a hash part.
-/

namespace EasyLua.Seri

open Format

variable {heap : Heap} {levels : Nat}

/-! ## The contents of a copy -/

/-- Two unpacked tables have the same fields, and the same fields under tables. -/
def Data.SameContents : Data → Data → Prop
  | .table fields byTable, .table fields' byTable' =>
      (∀ key, Data.lookup fields key = Data.lookup fields' key) ∧ byTable.Perm byTable'
  | _, _ => False

/-- Raw sets that agree with a function, and make all its values that are not nil, make it. -/
theorem Data.lookup_eq {fields : List (Scalar × Data)} (value : Scalar → Data)
    (agree : ∀ field ∈ fields, field.2 = value field.1)
    (cover : ∀ key, value key ≠ .nil → ∃ field ∈ fields, field.1 = key) (key : Scalar) :
    Data.lookup fields key = value key := by
  unfold Data.lookup
  cases found : fields.find? fun field => field.1 = key with
  | some field =>
      have sameKey : field.1 = key := by simpa using List.find?_some found
      rw [← sameKey]
      exact agree field (List.mem_of_find?_eq_some found)
  | none =>
      by_contra present
      obtain ⟨field, member, sameKey⟩ := cover key fun absent => present absent.symm
      have differs := List.find?_eq_none.mp found field member
      exact differs (by simpa using sameKey)

/-- The raw set of a copied pair under a scalar key. -/
def scalarField (copy : LuaValue → Data) (pair : LuaValue × LuaValue) : Option (Scalar × Data) :=
  match copy pair.1 with
  | .scalar key => some (key.toKey, copy pair.2)
  | _ => none

/-- The raw set of a copied pair under a table. -/
def tableField (copy : LuaValue → Data) (pair : LuaValue × LuaValue) : Option (Data × Data) :=
  match copy pair.1 with
  | .table fields byTable => some (.table fields byTable, copy pair.2)
  | _ => none

section Copy

variable (copy : LuaValue → Data)

theorem setAll_fields (pairs : List (LuaValue × LuaValue)) (table : NewTable) :
    (setAll copy table pairs).fields =
      (pairs.filterMap (scalarField copy)).reverse ++ table.fields := by
  induction pairs generalizing table with
  | nil => rfl
  | cons pair pairs ih =>
      have first := ih (table.set (copy pair.1) (copy pair.2))
      change (setAll copy (table.set (copy pair.1) (copy pair.2)) pairs).fields = _
      rw [first, List.filterMap_cons]
      unfold scalarField NewTable.set
      cases copy pair.1 with
      | nil => rfl
      | scalar key => simp
      | table fields byTable => rfl

theorem setAll_byTable (pairs : List (LuaValue × LuaValue)) (table : NewTable) :
    (setAll copy table pairs).byTable =
      (pairs.filterMap (tableField copy)).reverse ++ table.byTable := by
  induction pairs generalizing table with
  | nil => rfl
  | cons pair pairs ih =>
      have first := ih (table.set (copy pair.1) (copy pair.2))
      change (setAll copy (table.set (copy pair.1) (copy pair.2)) pairs).byTable = _
      rw [first, List.filterMap_cons]
      unfold tableField NewTable.set
      cases copy pair.1 with
      | nil => rfl
      | scalar key => rfl
      | table fields byTable => simp

theorem setArray_byTable (source : LuaTable) (first count : Nat) (table : NewTable) :
    (setArray copy source first count table).byTable = table.byTable := by
  induction count generalizing first table with
  | zero => rfl
  | succ count ih =>
      unfold setArray
      rw [List.range'_succ]
      exact ih (first + 1) (table.rawseti (first + 1) (copy (source.rawgeti (first + 1))))

theorem mem_setArray (source : LuaTable) (first count : Nat) (table : NewTable)
    (field : Scalar × Data) :
    field ∈ (setArray copy source first count table).fields ↔ field ∈ table.fields ∨
      ∃ j ∈ List.range' first count,
        field = (.integer (BitVec.ofInt 64 (j + 1)), copy (source.rawgeti (j + 1))) := by
  induction count generalizing first table with
  | zero => simp [setArray]
  | succ count ih =>
      have rest := ih (first + 1) (table.rawseti (first + 1) (copy (source.rawgeti (first + 1))))
      have unfolded : setArray copy source first (count + 1) table =
          setArray copy source (first + 1) count
            (table.rawseti (first + 1) (copy (source.rawgeti (first + 1)))) := by
        unfold setArray
        rw [List.range'_succ]
        rfl
      rw [unfolded, rest, List.range'_succ, List.exists_mem_cons_iff, ← or_assoc]
      exact or_congr_left (List.mem_cons.trans or_comm)

end Copy

/-! ## What a table that is built from raw contents has under a key -/

/-- Scalars are copied to themselves, unless nothing is, and nothing else is copied to
them. -/
structure CopiesScalars (copy : LuaValue → Data) : Prop where
  nil : copy .nil = .nil
  only : ∀ value key, copy value = .scalar key → value = .scalar key
  scalar : ∀ value, copy value ≠ .nil → ∀ key, copy (.scalar key) = .scalar key

theorem copiesScalars (heap : Heap) (levels : Nat) : CopiesScalars (copyOne heap levels) := by
  cases levels with
  | zero => exact ⟨rfl, nofun, fun _ some_ => absurd rfl some_⟩
  | succ levels =>
      refine ⟨rfl, fun value key same => ?_, fun _ _ key => rfl⟩
      cases value with
      | nil => cases same
      | scalar other =>
          cases same
          rfl
      | unsupported typename ref => cases same
      | table ref =>
          simp only [copyOne] at same
          split at same <;> cases same

section Contents

variable {copy : LuaValue → Data} {source : LuaTable}

theorem mem_scalarFields (copies : CopiesScalars copy) {pairs : List (LuaValue × LuaValue)}
    {field : Scalar × Data} (member : field ∈ pairs.filterMap (scalarField copy)) :
    ∃ key value, (.scalar key, value) ∈ pairs ∧ field = (key.toKey, copy value) := by
  obtain ⟨pair, inside, set⟩ := List.mem_filterMap.mp member
  unfold scalarField at set
  split at set
  · next key same =>
      have isScalar := copies.only _ _ same
      refine ⟨key, pair.2, ?_, (Option.some.inj set).symm⟩
      rw [← isScalar]
      exact inside
  · cases set

theorem scalarFields_mem (copies : CopiesScalars copy) {pairs : List (LuaValue × LuaValue)}
    {key : Scalar} {value : LuaValue} (some_ : copy value ≠ .nil)
    (member : (.scalar key, value) ∈ pairs) :
    (key.toKey, copy value) ∈ pairs.filterMap (scalarField copy) := by
  refine List.mem_filterMap.mpr ⟨_, member, ?_⟩
  unfold scalarField
  rw [copies.scalar value some_ key]

/-- The raw sets of entries of a table agree with the table. -/
theorem scalarFields_agree (copies : CopiesScalars copy) {entries : List (LuaValue × LuaValue)}
    (inside : ∀ entry ∈ entries, entry ∈ source.entries) :
    ∀ field ∈ entries.filterMap (scalarField copy),
      field.2 = copy (source.get (.scalar field.1)) := by
  intro field member
  obtain ⟨key, value, entry, rfl⟩ := mem_scalarFields copies member
  have stored : key.toKey = key := (source.isKey _ (inside _ entry)).2
  simp only [stored]
  rw [source.get_of_mem (inside _ entry)]

/-- A table that is built from all entries, in any order, has under each scalar key the copy
of the field. -/
theorem lookup_setAll (copies : CopiesScalars copy) {pairs : List (LuaValue × LuaValue)}
    (contents : pairs.Perm source.entries) (key : Scalar) :
    Data.lookup (setAll copy .empty pairs).fields key = copy (source.get (.scalar key)) := by
  have fields := setAll_fields copy pairs .empty
  refine Data.lookup_eq (fun key => copy (source.get (.scalar key)))
    (fun field member => ?_) (fun key some_ => ?_) key
  · rw [fields, List.mem_append, List.mem_reverse] at member
    exact scalarFields_agree copies (fun entry => contents.mem_iff.mp) field
      (member.resolve_right List.not_mem_nil)
  · have present : source.get (.scalar key) ≠ .nil := fun absent => some_ (by
      rw [absent]
      exact copies.nil)
    have entry := (source.get_cases (.scalar key)).resolve_left present
    have stored : key.toKey = key := (source.isKey _ entry).2
    have set := scalarFields_mem copies some_ (contents.mem_iff.mpr entry)
    rw [fields]
    exact ⟨_, List.mem_append_left _ (List.mem_reverse.mpr set), stored⟩

/-- So does one that is built from an array part and a hash part. -/
theorem lookup_copyRaw (copies : CopiesScalars copy) (source : LuaTable) (key : Scalar) :
    Data.lookup (copyRaw copy source).fields key = copy (source.get (.scalar key)) := by
  have fields := setAll_fields copy (hashEntries source)
    (setArray copy source 0 source.border .empty)
  refine Data.lookup_eq (fun key => copy (source.get (.scalar key)))
    (fun field member => ?_) (fun key some_ => ?_) key
  · unfold copyRaw at member
    rw [fields, List.mem_append, List.mem_reverse] at member
    rcases member with hash | array
    · exact scalarFields_agree copies (fun entry => List.mem_of_mem_filter) field hash
    · obtain ⟨j, _, rfl⟩ :=
        ((mem_setArray copy source 0 source.border .empty field).mp array).resolve_left
          List.not_mem_nil
      rfl
  · have present : source.get (.scalar key) ≠ .nil := fun absent => some_ (by
      rw [absent]
      exact copies.nil)
    unfold copyRaw
    rw [fields]
    rcases written_of_get_ne_nil present with ⟨j, inside, rfl⟩ | ⟨entry, inside, isScalar⟩
    · have array := (mem_setArray copy source 0 source.border .empty _).mpr
        (Or.inr ⟨j, inside, rfl⟩)
      exact ⟨_, List.mem_append_right _ array, rfl⟩
    · have member : (.scalar key, entry.2) ∈ hashEntries source := isScalar ▸ inside
      have stored : key.toKey = key := (source.isKey _ (List.mem_of_mem_filter member)).2
      have value : source.get (.scalar key) = entry.2 :=
        source.get_of_mem (List.mem_of_mem_filter member)
      rw [value] at some_
      have set := scalarFields_mem copies some_ member
      exact ⟨_, List.mem_append_left _ (List.mem_reverse.mpr set), stored⟩

/-- A scalar is copied to no table. -/
theorem tableField_scalar (copies : CopiesScalars copy) (key : Scalar) (value : LuaValue) :
    tableField copy (.scalar key, value) = none := by
  unfold tableField
  by_cases some_ : copy (.scalar key) = .nil
  · rw [some_]
  · rw [copies.scalar _ some_ key]

theorem tableField_of_inArray (copies : CopiesScalars copy) {border : Nat}
    {entry : LuaValue × LuaValue} (array : Format.inArray border entry.1 = true) :
    tableField copy entry = none := by
  obtain ⟨key, value⟩ := entry
  cases key with
  | scalar key => exact tableField_scalar copies key value
  | nil => cases array
  | table ref => cases array
  | unsupported typename ref => cases array

theorem tableFields_hashEntries (copies : CopiesScalars copy) (source : LuaTable) :
    (hashEntries source).filterMap (tableField copy) =
      source.entries.filterMap (tableField copy) := by
  unfold hashEntries
  rw [List.filterMap_filter]
  refine List.filterMap_congr fun entry _ => ?_
  cases array : Format.inArray source.border entry.1 with
  | false => rfl
  | true => exact (tableField_of_inArray copies array).symm

/-- **The order does not matter, nor the array part**: all entries as pairs make a table with
the contents that the array part and the hash part make. -/
theorem sameContents_copyRaw (copies : CopiesScalars copy) {pairs : List (LuaValue × LuaValue)}
    (contents : pairs.Perm source.entries) :
    (setAll copy .empty pairs).toData.SameContents (copyRaw copy source).toData := by
  refine ⟨fun key => ?_, ?_⟩
  · rw [lookup_setAll copies contents, lookup_copyRaw copies source]
  · have reorder : (pairs.filterMap (tableField copy)).Perm
        (source.entries.filterMap (tableField copy)) := contents.filterMap _
    have fromArray := setArray_byTable copy source 0 source.border .empty
    unfold copyRaw
    rw [setAll_byTable, setAll_byTable, fromArray, tableFields_hashEntries copies source]
    exact ((List.reverse_perm _).trans (reorder.trans (List.reverse_perm _).symm)).append_right _

end Contents

/-! ## The copy is the value -/

variable {heap : Heap} {levels : Nat}

theorem Serializable.copyable {value : LuaValue} (serializable : Serializable heap levels value) :
    Copyable heap levels value := by
  refine serializable.induction (fun _ => trivial) (fun _ _ => trivial) ?_
  intro levels ref noPairs entries ih
  simp only [Copyable, noPairs]
  intro entry member
  obtain ⟨⟨key, isScalar⟩, value⟩ := entries entry member
  rw [isScalar]
  exact ⟨ih _ (value.key key), ih _ value⟩

/-- The copy of a value of nil, scalars and plain tables equals it field by field. -/
theorem copyOne_denotes {value : LuaValue} (serializable : Serializable heap levels value) :
    Denotes heap value (copyOne heap levels value) := by
  refine serializable.induction (fun _ => .nil) (fun _ scalar => .scalar scalar) ?_
  intro levels ref noPairs entries ih
  have copies := copiesScalars heap levels
  have scalarKeys (entry : LuaValue × LuaValue) (member : entry ∈ (heap ref).entries) :=
    (entries entry member).1
  have noTables : (copyRaw (copyOne heap levels) (heap ref)).byTable = [] := by
    have fromArray := setArray_byTable (copyOne heap levels) (heap ref) 0
      (heap ref).border .empty
    unfold copyRaw
    rw [setAll_byTable, fromArray, tableFields_hashEntries copies]
    refine List.append_eq_nil_iff.mpr ⟨?_, rfl⟩
    refine List.reverse_eq_nil_iff.mpr (List.filterMap_eq_nil_iff.mpr ?_)
    intro ⟨key, value⟩ member
    obtain ⟨scalar, rfl⟩ := scalarKeys (key, value) member
    exact tableField_scalar copies scalar value
  have copy : copyOne heap (levels + 1) (.table ref) =
      (copyRaw (copyOne heap levels) (heap ref)).toData := by
    simp only [copyOne, noPairs]
    rfl
  rw [copy]
  unfold NewTable.toData
  rw [noTables]
  refine .table ref _ scalarKeys fun key => ?_
  rw [lookup_copyRaw copies]
  rcases (heap ref).get_cases (.scalar key) with absent | entry
  · rw [absent, copies.nil]
    exact .nil
  · exact ih _ (entries _ entry).2

/-! ## The round trip -/

/-- However these bytes are given, they are unpacked to these values. -/
def Unpacks (bytes : Bytes) (data : List Data) : Prop :=
  ∀ argument : UnpackArgument, argument.Gives bytes →
    ∃ rb, luaseriUnpack argument = .ok data rb

theorem unpacks_of_parsed {bytes : Bytes} {data : Data} (small : bytes.length < 2 ^ 31)
    (present : bytes ≠ [])
    (parsed : ∀ rest, parseOne (bytes.length + 1) (bytes ++ rest) = .ok (data, rest)) :
    Unpacks bytes [data] := by
  intro argument given
  have positive := List.length_pos_iff.mpr present
  obtain ⟨less, length⟩ : ∃ less, bytes.length = less + 1 := Nat.exists_eq_add_one.mpr positive
  have one := parsed []
  rw [List.append_nil] at one
  have all : parseFrom (bytes.length + 1) bytes = .ok ([data], []) := by
    unfold parseFrom
    rw [Parser.orEnd_of_ne_nil _ _ present, Parser.bind_run_of_ok one, length]
    rfl
  obtain ⟨rb, unpacked, _⟩ := unpackBuffer_of_parsed small all
  exact ⟨rb, (luaseriUnpack_of_gives given small).trans unpacked⟩

/-- The raw contents of a table, packed and unpacked. -/
theorem copyRaw_unpacks {source : LuaTable} (noPairs : source.pairs = none)
    (copyable : ∀ entry ∈ source.entries,
      Copyable heap levels entry.1 ∧ Copyable heap levels entry.2)
    (small : (encodeRaw heap levels source).length < 2 ^ 31) :
    (∃ wb, wbTable (packOne heap levels) .init source = .ok wb ∧
      wb.Holds (encodeRaw heap levels source)) ∧
      Unpacks (encodeRaw heap levels source) [(copyRaw (copyOne heap levels) source).toData] := by
  have nonempty : encodeRaw heap levels source ≠ [] := by
    unfold encodeRaw
    exact fun empty => by simpa using congrArg List.length empty
  refine ⟨?_, unpacks_of_parsed small nonempty fun rest => ?_⟩
  · have form : encodeRaw heap levels source = encodeTableHeader source.border ++
        (arrayFields source).flatMap (encodeOne heap levels) ++
        (hashEntries source).flatMap (fun entry =>
          encodeOne heap levels entry.1 ++ encodeOne heap levels entry.2) ++ [header 0 0] := by
      unfold encodeRaw
      simp only [List.append_assoc]
    rw [form] at small ⊢
    have packed := wbTableRaw_packs (packOne_packs heap levels)
      (fun field member => (Copyable.field copyable member).packable)
      (fun entry member => ⟨(copyable entry (List.mem_of_mem_filter member)).1.packable,
        (copyable entry (List.mem_of_mem_filter member)).2.packable⟩) small
      WriteBlock.init_holds
    unfold wbTable
    rw [noPairs]
    exact packed
  · refine parseOne_copies_raw copyable small (Nat.le_refl _) ?_ rest
    intro limit within enough value fine below
    exact parseOne_copies levels value fine (by omega) _ (by omega)

/-- The raw sets of pairs that an iterator may yield all succeed. -/
theorem foldlM_rawset {copy : LuaValue → Data} (pairs : List (LuaValue × LuaValue))
    (isKey : ∀ pair ∈ pairs, (copy pair.1).IsKey) (table : NewTable) :
    pairs.foldlM (fun table pair => table.rawset (copy pair.1) (copy pair.2)) table =
      .ok (setAll copy table pairs) := by
  induction pairs generalizing table with
  | nil => rfl
  | cons pair pairs ih =>
      have first := table.rawset_eq (isKey pair List.mem_cons_self) (copy pair.2)
      have rest := ih (fun other member => isKey other (List.mem_cons_of_mem pair member))
        (table.set (copy pair.1) (copy pair.2))
      rw [List.foldlM_cons, first]
      exact rest

/-- A table without array fields has another header than one with some. -/
theorem encodeTableHeader_ne {border : Nat} (some_ : border ≠ 0) (rest rest' : Bytes) :
    encodeTableHeader 0 ++ rest ≠ encodeTableHeader border ++ rest' := by
  intro same
  unfold encodeTableHeader at same
  rw [if_pos (by omega)] at same
  split at same
  · next short =>
      have first := (List.cons.inj same).1
      have values : ∀ cookie : Fin 31, header 6 0 = header 6 cookie → cookie = 0 := by decide
      exact some_ (congrArg Fin.val (values ⟨border, short⟩ first))
  · have first : header 6 0 = header 6 31 := (List.cons.inj same).1
    exact absurd first (by decide)

/-- No key is in an array part without fields. -/
theorem inArray_zero (key : LuaValue) : (!Format.inArray 0 key) = true := by
  unfold Format.inArray
  split
  · next x => simpa using (Int.lt_or_le 0 x.toInt).symm
  · rfl

/-- **Packing through `__pairs`**: a table whose iterator yields these pairs is packed from
the Lua stack, which is left as it was, and unpacked to the table that the raw sets of the
pairs make. If the pairs are the raw contents of some table, in any order, it has the
contents that this table is unpacked to; the bytes are other ones exactly if there is an
array part, as long as the order is that of `lua_next`. -/
theorem metapairs_agree (heap : Heap) (start : Nat → Nat → LuaValue × LuaValue) (ref : Nat)
    (pairs : List (LuaValue × LuaValue)) (isPairs : (heap ref).pairs = some pairs)
    (copyable : ∀ pair ∈ pairs, pair.1.IsPairKey ∧ Copyable heap MAX_DEPTH pair.1 ∧
      Copyable heap MAX_DEPTH pair.2)
    (small : (encodeOne heap (MAX_DEPTH + 1) (.table ref)).length < 2 ^ 31) :
    ∃ bytes table, luaseriPack heap [.table ref] = .ok (bytes, (bytes.length : Int)) ∧
      pairs.foldlM (fun table pair => table.rawset (copyOne heap MAX_DEPTH pair.1)
        (copyOne heap MAX_DEPTH pair.2)) NewTable.empty = .ok table ∧
      Unpacks bytes [table.toData] ∧
      (∀ value, Serializable heap MAX_DEPTH value →
        Denotes heap value (copyOne heap MAX_DEPTH value)) ∧
      (∃ enough, ∀ fuel, enough ≤ fuel →
        (∀ iterators, ∃ more, OnStack.luaseriPack heap start fuel
            ⟨[.value (.table ref)], iterators⟩ =
          .ok ((bytes, (bytes.length : Int)), ⟨[.value (.table ref)], iterators ++ more⟩)) ∧
        ∀ wb written state idx, wb.Holds written →
          OnStack.LuaState.slot state idx = some (.value (.table ref)) →
          ∃ after more, OnStack.wbTable heap start (OnStack.packOne heap start fuel MAX_DEPTH) fuel
              wb idx state = .ok (after, ⟨state.stack, state.iterators ++ more⟩) ∧
            after.Holds (written ++ bytes)) ∧
      ∀ raw : LuaTable, raw.pairs = none → pairs.Perm raw.entries →
        (encodeRaw heap MAX_DEPTH raw).length < 2 ^ 31 →
        ∃ wb bytesRaw dataRaw, wbTable (packOne heap MAX_DEPTH) .init raw = .ok wb ∧
          wb.Holds bytesRaw ∧ Unpacks bytesRaw [dataRaw] ∧
          table.toData.SameContents dataRaw ∧ (raw.border ≠ 0 → bytes ≠ bytesRaw) ∧
          (raw.border = 0 → pairs = raw.entries → bytes = bytesRaw) := by
  have components (pair : LuaValue × LuaValue) (member : pair ∈ pairs) :=
    (copyable pair member).2
  have isKey (pair : LuaValue × LuaValue) (member : pair ∈ pairs) :=
    (components pair member).1.isKey (copyable pair member).1
  have fine : Copyable heap (MAX_DEPTH + 1) (.table ref) := by
    simp only [Copyable, isPairs]
    exact copyable
  have bytes : encodeOne heap (MAX_DEPTH + 1) (.table ref) = encodeTableHeader 0 ++
      (pairs.flatMap (fun pair =>
        encodeOne heap MAX_DEPTH pair.1 ++ encodeOne heap MAX_DEPTH pair.2) ++ [header 0 0]) := by
    simp only [encodeOne, isPairs, List.append_assoc]
  have copy : copyOne heap (MAX_DEPTH + 1) (.table ref) =
      (setAll (copyOne heap MAX_DEPTH) .empty pairs).toData := by
    simp only [copyOne, isPairs]
  have whole : encode heap (MAX_DEPTH + 1) [.table ref] =
      encodeOne heap (MAX_DEPTH + 1) (.table ref) := by
    unfold encode
    rw [List.flatMap_singleton]
  have packed := luaseriPack_eq heap [.table ref]
    (fun value member => List.mem_singleton.mp member ▸ fine.packable) (whole ▸ small)
  rw [whole] at packed
  refine ⟨_, _, packed, foldlM_rawset pairs isKey .empty, ?_, fun _ => copyOne_denotes, ?_, ?_⟩
  · refine unpacks_of_parsed small ?_ fun rest => ?_
    · exact List.ne_nil_of_length_pos (encodeOne_pos fine.packable)
    · rw [← copy]
      exact parseOne_copies (MAX_DEPTH + 1) _ fine small _ (Nat.lt_succ_self _) rest
  · have values : ∀ value ∈ [LuaValue.table ref], Copyable heap (MAX_DEPTH + 1) value :=
      fun value member => List.mem_singleton.mp member ▸ fine
    have each (value : LuaValue) (copyable : Copyable heap MAX_DEPTH value) :
        ∃ enough, ∀ fuel, enough ≤ fuel → OnStack.FollowsWith heap start MAX_DEPTH fuel value :=
      OnStack.packOne_follows MAX_DEPTH value copyable
    obtain ⟨enough, onStack⟩ := OnStack.luaseriPack_follows [.table ref] values packed
    obtain ⟨enoughTable, table⟩ := OnStack.wbTable_enough each fine
    refine ⟨max enough enoughTable, fun fuel fits => ⟨onStack fuel (by omega), ?_⟩⟩
    intro wb written state idx holds found
    obtain ⟨after, packedTable, holdsAfter⟩ :=
      packOne_packs heap (MAX_DEPTH + 1) (.table ref) fine.packable small wb written holds
    obtain ⟨more, ran⟩ := table fuel (by omega) wb after state idx found packedTable
    exact ⟨after, more, ran, holdsAfter⟩
  · intro raw noPairs contents smallRaw
    have entries (entry : LuaValue × LuaValue) (member : entry ∈ raw.entries) :=
      components entry (contents.mem_iff.mpr member)
    obtain ⟨⟨wb, packedRaw, holds⟩, unpacked⟩ := copyRaw_unpacks noPairs entries smallRaw
    refine ⟨wb, _, _, packedRaw, holds, unpacked,
      sameContents_copyRaw (copiesScalars heap MAX_DEPTH) contents, fun some_ => ?_, ?_⟩
    · rw [bytes]
      exact encodeTableHeader_ne some_ _ _
    · intro none_ sameOrder
      have noFields : arrayFields raw = [] :=
        List.length_eq_zero_iff.mp ((length_arrayFields raw).trans none_)
      have all : hashEntries raw = raw.entries := by
        unfold hashEntries
        rw [none_]
        exact List.filter_eq_self.mpr fun entry _ => inArray_zero entry.1
      unfold encodeRaw
      rw [bytes, none_, noFields, all, sameOrder]
      rfl

/-- A table with an array part, whose iterator yields its fields in another order, one of
them a table without fields. -/
def reordered : Heap := fun ref =>
  if ref = 0 then
    { entries := [(index 1, .scalar (.boolean true)), (.scalar (.string [0x6b]), .table 1)]
      border := 1
      pairs := some [(.scalar (.string [0x6b]), .table 1), (index 1, .scalar (.boolean true))]
      keys_nodup := by decide
      isKey := by decide
      value_ne_nil := by decide
      border_le := by decide
      border_end := by decide }
  else nested 1

theorem metapairs_agree_reordered :
    ∃ bytes bytesRaw dataRaw, ∃ table : NewTable,
      luaseriPack reordered [.table 0] = .ok (bytes, (bytes.length : Int)) ∧
      Unpacks bytes [table.toData] ∧ Unpacks bytesRaw [dataRaw] ∧
      table.toData.SameContents dataRaw ∧ bytes ≠ bytesRaw := by
  have copyable : ∀ pair ∈ [(.scalar (.string [0x6b]), .table 1),
      (index 1, .scalar (.boolean true))], pair.1.IsPairKey ∧
        Copyable reordered MAX_DEPTH pair.1 ∧ Copyable reordered MAX_DEPTH pair.2 := by
    intro pair member
    rcases List.mem_cons.mp member with rfl | later
    · exact ⟨rfl, trivial, nofun⟩
    · obtain rfl := List.mem_singleton.mp later
      exact ⟨rfl, trivial, trivial⟩
  have length : (encodeOne reordered (MAX_DEPTH + 1) (.table 0)).length = 9 := rfl
  obtain ⟨bytes, table, packed, _, unpacked, _, _, raw⟩ :=
    metapairs_agree reordered (fun _ _ => (.nil, .nil)) 0 _ rfl copyable (by omega)
  have lengthRaw : (encodeRaw reordered MAX_DEPTH
      { reordered 0 with pairs := none }).length = 7 := rfl
  obtain ⟨_, bytesRaw, dataRaw, _, _, unpackedRaw, same, differs, _⟩ :=
    raw { reordered 0 with pairs := none } rfl (.swap _ _ _) (by omega)
  exact ⟨bytes, bytesRaw, dataRaw, table, packed, unpacked, unpackedRaw, same,
    differs (by decide)⟩

/-! ## Where the two paths differ from that -/

/-- Tables whose iterator yields one pair, and that have no raw contents. -/
def yieldsOne (key value : LuaValue) : Heap := fun _ =>
  { nested 1 with pairs := some [(key, value)] }

/-- The length of a string is converted to `int`, and so a string of `2 ^ 31` bytes is
written as the empty string. -/
theorem wbString_wraps {str : Bytes} (length : str.length = 2 ^ 31) (wb : WriteBlock) :
    wbString wb str (toInt str.length) = wb.push [0x04] := by
  have wrapped : toInt (2 ^ 31 : Nat) = -2 ^ 31 := by decide
  unfold wbString
  rw [length, wrapped]
  rfl

theorem luaseriPack_wraps {str : Bytes} (length : str.length = 2 ^ 31) :
    luaseriPack (yieldsOne (index 1) (.scalar (.string str))) [.table 0] =
      .ok ([0x06, 0x0a, 0x01, 0x04, 0x00], 5) := by
  have value (wb : WriteBlock) : packOne (yieldsOne (index 1) (.scalar (.string str))) MAX_DEPTH wb
      (.scalar (.string str)) = .ok (wb.push [0x04]) :=
    congrArg Except.ok (wbString_wraps length wb)
  have table : packOne (yieldsOne (index 1) (.scalar (.string str))) (MAX_DEPTH + 1) .init
      (.table 0) =
        .ok (wbNil ((wbInteger (WriteBlock.init.push [combineType TYPE_TABLE 0]) 1).push [0x04])) := by
    change ((packOne (yieldsOne (index 1) (.scalar (.string str))) MAX_DEPTH
      (wbInteger (WriteBlock.init.push [combineType TYPE_TABLE 0]) 1)
      (.scalar (.string str)) >>= pure) >>= fun wb => pure (wbNil wb)) = _
    rw [value]
    rfl
  unfold luaseriPack packFrom
  rw [List.foldlM_cons, table]
  rfl

/-- A table with a field and no array part. -/
def oneField : Heap := fun ref =>
  { entries := [(.scalar (.string [0x6b]), .scalar (.boolean true))]
    border := 0
    pairs := if ref = 0 then some [(.scalar (.string [0x6b]), .scalar (.boolean true))] else none
    keys_nodup := by decide
    isKey := by decide
    value_ne_nil := by decide
    border_le := Or.inl rfl
    border_end := rfl }

/-- **A string of `2 ^ 31` bytes comes back as the empty one, and without an array part both
paths write the same bytes.** -/
theorem metapairs_disagree :
    (∃ heap : Heap, ∃ pairs table data rb, (heap 0).pairs = some pairs ∧
      (∀ pair ∈ pairs, pair.1.IsPairKey ∧ Copyable heap MAX_DEPTH pair.1 ∧
        Copyable heap MAX_DEPTH pair.2) ∧
      pairs.foldlM (fun table pair => table.rawset (copyOne heap MAX_DEPTH pair.1)
        (copyOne heap MAX_DEPTH pair.2)) NewTable.empty = .ok table ∧
      luaseriPack heap [.table 0] = .ok ([0x06, 0x0a, 0x01, 0x04, 0x00], 5) ∧
      luaseriUnpack (.string [0x06, 0x0a, 0x01, 0x04, 0x00]) = .ok [data] rb ∧
      ¬ table.toData.SameContents data) ∧
    ((oneField 0).pairs = some (oneField 1).entries ∧ (oneField 1).pairs = none ∧
      luaseriPack oneField [.table 0] = luaseriPack oneField [.table 1]) := by
  refine ⟨?_, rfl, rfl, rfl⟩
  let str : Bytes := List.replicate (2 ^ 31) 0x61
  have length : str.length = 2 ^ 31 := List.length_replicate
  have parsed : parseFrom 6 [0x06, 0x0a, 0x01, 0x04, 0x00] =
      .ok ([.table [(.integer 1, .scalar (.string []))] []], []) := rfl
  obtain ⟨rb, ran, _⟩ := unpackBuffer_of_parsed
    (show [0x06, 0x0a, 0x01, 0x04, 0x00].length < 2 ^ 31 by decide) parsed
  refine ⟨yieldsOne (index 1) (.scalar (.string str)), [(index 1, .scalar (.string str))],
    ⟨[(.integer 1, .scalar (.string str))], []⟩, .table [(.integer 1, .scalar (.string []))] [],
    rb, rfl, ?_, rfl, luaseriPack_wraps length, ran, fun same => ?_⟩
  · intro pair member
    obtain rfl := List.mem_singleton.mp member
    exact ⟨rfl, trivial, trivial⟩
  · have field := same.1 (.integer 1)
    rw [Data.lookup_cons, Data.lookup_cons, if_pos rfl, if_pos rfl] at field
    have empty : str = [] := Scalar.string.inj (Data.scalar.inj field)
    have none_ := length.symm.trans (congrArg List.length empty)
    exact absurd none_ (by decide)

end EasyLua.Seri
