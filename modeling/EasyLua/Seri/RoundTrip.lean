import EasyLua.Seri.Bounds
import EasyLua.Seri.ParseFormat

/-!
# Unpacking what was packed

The values that survive a round trip, and the proof that they do. A loop of the decoder
fills a new table: each key either agrees with the packed table or has not been touched,
and the keys that are written are those of the array part and of the hash part, however
the border divides them.
-/

namespace EasyLua.Seri

open Format

/-- A value of nil, scalars and tables without `__pairs` whose keys are scalars, with at most
so many levels. -/
def Serializable (heap : Heap) : Nat → LuaValue → Prop
  | 0, _ => False
  | levels + 1, value =>
      match value with
      | .nil => True
      | .scalar _ => True
      | .table ref =>
          (heap ref).pairs = none ∧ ∀ entry ∈ (heap ref).entries,
            (∃ key, entry.1 = .scalar key) ∧ Serializable heap levels entry.2
      | .unsupported _ _ => False

/-- The parser reads a value that the given one denotes, and leaves what follows. -/
def Reads (heap : Heap) (one : ByteParser Data) (bytes : Bytes) (value : LuaValue) : Prop :=
  ∃ data, Denotes heap value data ∧ ∀ rest, one (bytes ++ rest) = .ok (data, rest)

/-- A new table has at this key what the packed table has. -/
def Agrees (heap : Heap) (source : LuaTable) (table : NewTable) (key : Scalar) : Prop :=
  Denotes heap (source.get (.scalar key)) (Data.lookup table.fields key)

/-- From one table to the next every key agrees or is untouched, and no written key is
untouched. -/
structure Fills (heap : Heap) (source : LuaTable) (written : Scalar → Prop)
    (before after : NewTable) : Prop where
  byTable : after.byTable = before.byTable
  field : ∀ key, Agrees heap source after key ∨
    Data.lookup after.fields key = Data.lookup before.fields key ∧ ¬ written key

variable {heap : Heap} {source : LuaTable}

namespace Fills

variable {written more : Scalar → Prop} {first second third : NewTable}

theorem refl (table : NewTable) : Fills heap source (fun _ => False) table table where
  byTable := rfl
  field := fun _ => Or.inr ⟨rfl, id⟩

theorem trans (start : Fills heap source written first second)
    (finish : Fills heap source more second third) :
    Fills heap source (fun key => written key ∨ more key) first third where
  byTable := finish.byTable.trans start.byTable
  field := by
    intro key
    rcases finish.field key with agrees | ⟨same, unwritten⟩
    · exact Or.inl agrees
    · rcases start.field key with agrees | ⟨untouched, before⟩
      · left
        unfold Agrees at agrees ⊢
        rw [same]
        exact agrees
      · exact Or.inr ⟨same.trans untouched, not_or.mpr ⟨before, unwritten⟩⟩

/-- A raw set of a field of the packed table. -/
theorem set {key : Scalar} {data : Data} (table : NewTable)
    (denotes : Denotes heap (source.get (.scalar key)) data) :
    Fills heap source (· = key) table { table with fields := (key, data) :: table.fields } where
  byTable := rfl
  field := by
    intro other
    unfold Agrees
    simp only [Data.lookup_cons]
    by_cases same : key = other
    · subst same
      left
      rw [if_pos rfl]
      exact denotes
    · right
      rw [if_neg same]
      exact ⟨rfl, fun again => same again.symm⟩

theorem mono (fills : Fills heap source written first second)
    (fewer : ∀ key, more key → written key) : Fills heap source more first second where
  byTable := fills.byTable
  field := fun key => (fills.field key).imp_right fun ⟨same, unwritten⟩ =>
    ⟨same, fun writes => unwritten (fewer key writes)⟩

/-- A new table is right when all fields of the packed one have been written. -/
theorem denotes {ref : Nat} {table : NewTable}
    (fills : Fills heap (heap ref) written .empty table)
    (scalarKeys : ∀ entry ∈ (heap ref).entries, ∃ key, entry.1 = .scalar key)
    (all : ∀ key, (heap ref).get (.scalar key) ≠ .nil → written key) :
    Denotes heap (.table ref) table.toData := by
  have noTables : table.byTable = [] := fills.byTable
  unfold NewTable.toData
  rw [noTables]
  refine .table ref table.fields scalarKeys fun key => ?_
  rcases fills.field key with agrees | ⟨same, unwritten⟩
  · exact agrees
  · have absent : (heap ref).get (.scalar key) = .nil :=
      not_not.mp fun present => unwritten (all key present)
    rw [absent, same]
    exact .nil

end Fills

/-! ## Tables -/

/-- The first loop of a table writes the array part. -/
theorem parseArray_fills {one : ByteParser Data} {encode : LuaValue → Bytes} (count start : Nat)
    (table : NewTable)
    (reads : ∀ j ∈ List.range' start count,
      Reads heap one (encode (source.rawgeti (j + 1))) (source.rawgeti (j + 1))) :
    ∃ after, Fills heap source
        (fun key => ∃ j ∈ List.range' start count, key = .integer (BitVec.ofInt 64 (j + 1)))
        table after ∧
      ∀ rest, parseArray one count (start + 1) table
        (((List.range' start count).map fun j : Nat => source.rawgeti (j + 1)).flatMap encode ++
          rest) = .ok (after, rest) := by
  induction count generalizing start table with
  | zero => exact ⟨table, (Fills.refl table).mono (by simp), fun rest => rfl⟩
  | succ count ih =>
      rw [List.range'_succ] at reads ⊢
      obtain ⟨data, denotes, read⟩ := reads start List.mem_cons_self
      obtain ⟨after, fills, parsed⟩ := ih (start + 1) (table.rawseti (start + 1) data)
        fun j member => reads j (List.mem_cons_of_mem start member)
      refine ⟨after, ((Fills.set table denotes).trans fills).mono ?_, fun rest => ?_⟩
      · intro key isIndex
        obtain ⟨j, member, rfl⟩ := isIndex
        rcases List.mem_cons.mp member with rfl | later
        · exact Or.inl rfl
        · exact Or.inr ⟨j, later, rfl⟩
      · rw [List.map_cons, List.flatMap_cons, List.append_assoc]
        unfold parseArray
        rw [Parser.bind_run_of_ok (read _)]
        exact parsed rest

/-- The second loop of a table writes the hash part and ends at the closing nil. -/
theorem parseHash_fills {one : ByteParser Data} {encode : LuaValue → Bytes}
    {entries : List (LuaValue × LuaValue)} (inside : ∀ entry ∈ entries, entry ∈ source.entries)
    (scalarKeys : ∀ entry ∈ entries, ∃ key, entry.1 = .scalar key)
    (reads : ∀ entry ∈ entries, ∀ value, value = entry.1 ∨ value = entry.2 →
      Reads heap one (encode value) value)
    (closes : ∀ rest, one (header 0 0 :: rest) = .ok (.nil, rest))
    (fuel : Nat) (enough : entries.length < fuel) (table : NewTable) :
    ∃ after, Fills heap source (fun key => ∃ entry ∈ entries, entry.1 = .scalar key) table after ∧
      ∀ rest, parseHash one fuel table
        (entries.flatMap (fun entry => encode entry.1 ++ encode entry.2) ++ header 0 0 :: rest) =
          .ok (after.toData, rest) := by
  induction entries generalizing fuel table with
  | nil =>
      obtain ⟨fuel, rfl⟩ : ∃ less, fuel = less + 1 := Nat.exists_eq_add_one.mpr enough
      refine ⟨table, (Fills.refl table).mono (by simp), fun rest => ?_⟩
      unfold parseHash
      rw [List.flatMap_nil, List.nil_append, Parser.bind_run_of_ok (closes rest)]
      rfl
  | cons entry entries ih =>
      obtain ⟨fuel, rfl⟩ : ∃ less, fuel = less + 1 :=
        Nat.exists_eq_add_one.mpr (Nat.zero_lt_of_lt enough)
      obtain ⟨key, isScalar⟩ := scalarKeys entry List.mem_cons_self
      have member := inside entry List.mem_cons_self
      obtain ⟨_, keyDenotes, readKey⟩ := reads entry List.mem_cons_self entry.1 (Or.inl rfl)
      obtain ⟨data, denotes, readValue⟩ := reads entry List.mem_cons_self entry.2 (Or.inr rfl)
      have isKey : key.IsKey := by
        have := source.isKey entry member
        rw [isScalar] at this
        exact this
      rw [isScalar] at keyDenotes
      cases keyDenotes
      have value : source.get (.scalar key) = entry.2 := by
        rw [← isScalar]
        exact source.get_of_mem member
      rw [← value] at denotes
      have later {entry' : LuaValue × LuaValue} (member : entry' ∈ entries) :
          entry' ∈ entry :: entries := List.mem_cons_of_mem entry member
      obtain ⟨after, fills, parsed⟩ := ih (fun entry' member => inside entry' (later member))
        (fun entry' member => scalarKeys entry' (later member))
        (fun entry' member => reads entry' (later member)) fuel
        (Nat.lt_of_succ_lt_succ enough) { table with fields := (key, data) :: table.fields }
      refine ⟨after, ((Fills.set table denotes).trans fills).mono ?_, fun rest => ?_⟩
      · intro other occurs
        obtain ⟨entry', member', same⟩ := occurs
        rcases List.mem_cons.mp member' with rfl | later
        · left
          rw [isScalar] at same
          exact (LuaValue.scalar.inj same).symm
        · exact Or.inr ⟨entry', later, same⟩
      · have set : table.rawset (.scalar key) data =
            .ok { table with fields := (key, data) :: table.fields } := by
          unfold NewTable.rawset
          simp only [isKey.1, isKey.2]
          rfl
        rw [List.flatMap_cons, List.append_assoc, List.append_assoc]
        unfold parseHash
        rw [Parser.bind_run_of_ok (readKey _)]
        simp only
        rw [Parser.bind_run_of_ok (readValue _)]
        simp only [set]
        exact parsed rest

/-! ## Values -/

variable {levels : Nat}

/-- A field of a table is one level down, whether it is there or not. -/
theorem Serializable.field {ref : Nat}
    (entries : ∀ entry ∈ (heap ref).entries,
      (∃ key, entry.1 = .scalar key) ∧ Serializable heap levels entry.2)
    {field : LuaValue} (member : field ∈ arrayFields (heap ref)) :
    Serializable heap levels field := by
  obtain ⟨i, below, rfl⟩ := List.mem_map.mp member
  rcases (heap ref).get_cases (index (i + 1)) with hole | entry
  · -- a hole below the border: the entry at the border shows that a level is left
    have border : (heap ref).border ≠ 0 := by
      have := List.mem_range.mp below
      omega
    have top : (heap ref).get (index (heap ref).border) ≠ .nil :=
      (heap ref).border_le.resolve_left border
    have last := ((heap ref).get_cases (index (heap ref).border)).resolve_left top
    have serializable := (entries _ last).2
    unfold LuaTable.rawgeti
    rw [hole]
    cases levels with
    | zero => exact serializable.elim
    | succ levels => trivial
  · exact (entries _ entry).2

/-- A scalar key needs the level that its value has. -/
theorem Serializable.key {value : LuaValue} (serializable : Serializable heap levels value)
    (key : Scalar) : Serializable heap levels (.scalar key) := by
  cases levels with
  | zero => exact serializable.elim
  | succ levels => trivial

theorem Serializable.entry {ref : Nat}
    (entries : ∀ entry ∈ (heap ref).entries,
      (∃ key, entry.1 = .scalar key) ∧ Serializable heap levels entry.2)
    {entry : LuaValue × LuaValue} (member : entry ∈ hashEntries (heap ref)) {value : LuaValue}
    (which : value = entry.1 ∨ value = entry.2) : Serializable heap levels value := by
  obtain ⟨⟨key, isScalar⟩, serializable⟩ := entries entry (List.mem_of_mem_filter member)
  rcases which with rfl | rfl
  · rw [isScalar]
    exact serializable.key key
  · exact serializable

/-- Induction over what survives the round trip: nil, a scalar, or a table of values that have one
level less. -/
@[elab_as_elim]
theorem Serializable.induction {motive : Nat → LuaValue → Prop}
    (nil : ∀ levels, motive (levels + 1) .nil)
    (scalar : ∀ levels key, motive (levels + 1) (.scalar key))
    (table : ∀ levels ref, (heap ref).pairs = none →
      (∀ entry ∈ (heap ref).entries,
        (∃ key, entry.1 = .scalar key) ∧ Serializable heap levels entry.2) →
      (∀ value, Serializable heap levels value → motive levels value) →
      motive (levels + 1) (.table ref))
    {value : LuaValue} (serializable : Serializable heap levels value) : motive levels value := by
  induction levels generalizing value with
  | zero => exact serializable.elim
  | succ levels ih =>
      cases value with
      | nil => exact nil levels
      | scalar key => exact scalar levels key
      | unsupported typename ref => exact serializable.elim
      | table ref => exact table levels ref serializable.1 serializable.2 fun _ => ih

/-- What survives the round trip can be packed. -/
theorem Serializable.packable {value : LuaValue} (serializable : Serializable heap levels value) :
    Packable heap levels value := by
  refine serializable.induction (fun _ => trivial) (fun _ _ => trivial) ?_
  intro levels ref noPairs entries ih
  simp only [Packable, noPairs]
  refine ⟨fun field member => ih field (Serializable.field entries member), ?_⟩
  intro entry member
  exact ⟨ih _ (Serializable.entry entries member (Or.inl rfl)),
    ih _ (Serializable.entry entries member (Or.inr rfl))⟩

/-- A field that is not nil is in the array part or in the hash part. -/
theorem written_of_get_ne_nil {key : Scalar} (present : source.get (.scalar key) ≠ .nil) :
    (∃ j ∈ List.range' 0 source.border, key = .integer (BitVec.ofInt 64 (j + 1))) ∨
      ∃ entry ∈ hashEntries source, entry.1 = .scalar key := by
  have member := (source.get_cases (.scalar key)).resolve_left present
  by_cases array : Format.inArray source.border (.scalar key) = true
  · left
    cases key with
    | integer x =>
        obtain ⟨positive, le⟩ : 0 < x.toInt ∧ x.toInt ≤ source.border := by
          simpa [Format.inArray] using array
        refine ⟨(x.toInt - 1).toNat, ?_, ?_⟩
        · rw [List.mem_range'_1]
          omega
        · have same : ((x.toInt - 1).toNat : Int) + 1 = x.toInt := by omega
          rw [same, BitVec.ofInt_toInt]
    | boolean value => cases array
    | number bits => cases array
    | lightUserdata pointer => cases array
    | string str => cases array
  · right
    exact ⟨_, List.mem_filter.mpr ⟨member, by simpa using array⟩, rfl⟩

/-- A table after its header: its array size, its array part, its hash part. -/
theorem parseTable_reads {ref fuel cookie : Nat} {body : Bytes} {one : ByteParser Data}
    {encode : LuaValue → Bytes}
    (scalarKeys : ∀ entry ∈ (heap ref).entries, ∃ key, entry.1 = .scalar key)
    (arraySize : ∀ rest, parseArraySize cookie (body ++ rest) = .ok (((heap ref).border : Int), rest))
    (fields : ∀ field ∈ arrayFields (heap ref), Reads heap one (encode field) field)
    (entries : ∀ entry ∈ hashEntries (heap ref), ∀ value, value = entry.1 ∨ value = entry.2 →
      Reads heap one (encode value) value)
    (closes : ∀ rest, one (header 0 0 :: rest) = .ok (.nil, rest))
    (enough : (hashEntries (heap ref)).length < fuel) :
    ∃ data, Denotes heap (.table ref) data ∧ ∀ rest, parseTable fuel one cookie
      (body ++ ((arrayFields (heap ref)).flatMap encode ++
        ((hashEntries (heap ref)).flatMap (fun entry => encode entry.1 ++ encode entry.2) ++
          header 0 0 :: rest))) = .ok (data, rest) := by
  have range : arrayFields (heap ref) =
      (List.range' 0 (heap ref).border).map fun j : Nat => (heap ref).rawgeti (j + 1) := by
    rw [arrayFields, List.range_eq_range']
  obtain ⟨array, arrayFills, arrayParsed⟩ := parseArray_fills (heap ref).border 0 .empty
    (fun j member => fields _ (range ▸ List.mem_map_of_mem member))
  simp only [Nat.cast_zero, zero_add] at arrayParsed
  obtain ⟨table, tableFills, tableParsed⟩ := parseHash_fills
    (fun entry member => List.mem_of_mem_filter member)
    (fun entry member => scalarKeys entry (List.mem_of_mem_filter member)) entries closes fuel
    enough array
  refine ⟨table.toData, ?_, fun rest => ?_⟩
  · exact (arrayFills.trans tableFills).denotes scalarKeys fun key => written_of_get_ne_nil
  · unfold parseTable
    rw [Parser.bind_run_of_ok (arraySize _), Int.toNat_natCast, range,
      Parser.bind_run_of_ok (arrayParsed _)]
    exact tableParsed rest

/-- The bytes of a table without `__pairs`. -/
theorem encodeOne_table {ref : Nat} (noPairs : (heap ref).pairs = none) :
    encodeOne heap (levels + 1) (.table ref) =
      encodeTableHeader (heap ref).border ++
        ((arrayFields (heap ref)).flatMap (encodeOne heap levels) ++
          ((hashEntries (heap ref)).flatMap (fun entry =>
            encodeOne heap levels entry.1 ++ encodeOne heap levels entry.2) ++ [header 0 0])) := by
  simp only [encodeOne, noPairs, List.append_assoc]

/-- **Parsing inverts encoding**, by induction on the levels. -/
theorem parseOne_reads (levels : Nat) (value : LuaValue)
    (serializable : Serializable heap levels value)
    (small : (encodeOne heap levels value).length < 2 ^ 31) (fuel : Nat)
    (enough : (encodeOne heap levels value).length < fuel) :
    Reads heap (parseOne fuel) (encodeOne heap levels value) value := by
  induction levels generalizing value fuel with
  | zero => exact serializable.elim
  | succ levels ih =>
      obtain ⟨fuel, rfl⟩ : ∃ less, fuel = less + 1 :=
        Nat.exists_eq_add_one.mpr (Nat.zero_lt_of_lt enough)
      cases value with
      | nil => exact ⟨.nil, .nil, fun rest => parseOne_header (by omega) (by omega)⟩
      | scalar scalar => exact ⟨_, .scalar scalar, fun rest => parseOne_scalar scalar small⟩
      | unsupported typename ref => exact serializable.elim
      | table ref =>
          obtain ⟨noPairs, entries⟩ := serializable
          have fieldOk {field : LuaValue} (member : field ∈ arrayFields (heap ref)) :=
            Serializable.field entries member
          have entryOk {entry : LuaValue × LuaValue} (member : entry ∈ hashEntries (heap ref))
              {value : LuaValue} (which : value = entry.1 ∨ value = entry.2) :=
            Serializable.entry entries member which
          have border := length_le_flatMap (encodeOne heap levels) fun field member =>
            encodeOne_pos (fieldOk member).packable
          rw [length_arrayFields] at border
          have count := length_le_flatMap (fun entry : LuaValue × LuaValue =>
            encodeOne heap levels entry.1 ++ encodeOne heap levels entry.2)
            fun entry member => by
              rw [List.length_append]
              exact Nat.add_pos_left (encodeOne_pos (entryOk member (Or.inl rfl)).packable) _
          rw [encodeOne_table noPairs] at small enough ⊢
          simp only [List.length_append, List.length_singleton] at small enough
          obtain ⟨cookie, body, form, fits, arraySize⟩ :=
            parseArraySize_encode (show (heap ref).border < 2 ^ 31 by omega)
          rw [form, List.length_cons] at small enough
          have fields : ∀ field ∈ arrayFields (heap ref),
              Reads heap (parseOne fuel) (encodeOne heap levels field) field := by
            intro field member
            have within := length_le_of_mem_flatMap (encodeOne heap levels) member
            exact ih field (fieldOk member) (by omega) fuel (by omega)
          have hash : ∀ entry ∈ hashEntries (heap ref), ∀ value,
              value = entry.1 ∨ value = entry.2 →
              Reads heap (parseOne fuel) (encodeOne heap levels value) value := by
            intro entry member value which
            have within := length_le_of_mem_entries (encodeOne heap levels) member which
            exact ih value (entryOk member which) (by omega) fuel (by omega)
          have closes : ∀ rest, parseOne fuel (header 0 0 :: rest) = .ok (.nil, rest) := by
            obtain ⟨less, rfl⟩ : ∃ less, fuel = less + 1 :=
              Nat.exists_eq_add_one.mpr (by omega)
            exact fun rest => parseOne_header (by omega) (by omega)
          have rounds : (hashEntries (heap ref)).length < fuel := by omega
          obtain ⟨data, denotes, parsed⟩ := parseTable_reads
            (fun entry member => (entries entry member).1) arraySize fields hash closes rounds
          refine ⟨data, denotes, fun rest => ?_⟩
          rw [form, List.cons_append, List.cons_append, parseOne_header (by omega) fits]
          have table := parsed rest
          simp only [List.append_assoc, List.singleton_append] at table ⊢
          exact table

/-- The values of a call, one after the other, and what follows them. -/
theorem parseFrom_append (values : List LuaValue)
    (serializable : ∀ value ∈ values, Serializable heap levels value)
    (small : (encode heap levels values).length < 2 ^ 31) {more : Bytes}
    {good : List Data → Prop}
    (parsedMore : ∀ fuel, more.length < fuel →
      ∃ tail, good tail ∧ parseFrom fuel more = .ok (tail, []))
    (fuel : Nat) (enough : (encode heap levels values ++ more).length < fuel) :
    ∃ data tail, List.Forall₂ (Denotes heap) values data ∧ good tail ∧
      parseFrom fuel (encode heap levels values ++ more) = .ok (data ++ tail, []) := by
  induction values generalizing fuel with
  | nil =>
      obtain ⟨tail, fine, parsed⟩ := parsedMore fuel enough
      exact ⟨[], tail, .nil, fine, parsed⟩
  | cons value values ih =>
      obtain ⟨fuel, rfl⟩ : ∃ less, fuel = less + 1 :=
        Nat.exists_eq_add_one.mpr (Nat.zero_lt_of_lt enough)
      have first := serializable value List.mem_cons_self
      have positive := encodeOne_pos first.packable
      have bytes : encode heap levels (value :: values) =
          encodeOne heap levels value ++ encode heap levels values := List.flatMap_cons
      rw [bytes, List.length_append] at small
      rw [bytes, List.append_assoc, List.length_append] at enough
      obtain ⟨data, denotes, parsed⟩ := parseOne_reads levels value first (by omega) (fuel + 1)
        (by omega)
      obtain ⟨rest, tail, denotesRest, fine, parsedRest⟩ := ih
        (fun other member => serializable other (List.mem_cons_of_mem value member)) (by omega)
        fuel (by omega)
      have nonempty : encodeOne heap levels value ++ (encode heap levels values ++ more) ≠ [] :=
        List.ne_nil_of_length_pos (by rw [List.length_append]; omega)
      refine ⟨data :: rest, tail, .cons denotes denotesRest, fine, ?_⟩
      unfold parseFrom
      rw [bytes, List.append_assoc, Parser.orEnd_of_ne_nil _ _ nonempty,
        Parser.bind_run_of_ok (parsed _), Parser.bind_run_of_ok parsedRest]
      rfl

/-- The values of a call, one after the other. -/
theorem parseFrom_reads (values : List LuaValue)
    (serializable : ∀ value ∈ values, Serializable heap levels value)
    (small : (encode heap levels values).length < 2 ^ 31) (fuel : Nat)
    (enough : (encode heap levels values).length < fuel) :
    ∃ data, List.Forall₂ (Denotes heap) values data ∧
      parseFrom fuel (encode heap levels values) = .ok (data, []) := by
  have atEnd : ∀ fuel, ([] : Bytes).length < fuel →
      ∃ tail, tail = [] ∧ parseFrom fuel [] = .ok (tail, []) := by
    intro fuel positive
    obtain ⟨fuel, rfl⟩ : ∃ less, fuel = less + 1 := Nat.exists_eq_add_one.mpr positive
    exact ⟨[], rfl, rfl⟩
  obtain ⟨data, tail, denotes, rfl, parsed⟩ := parseFrom_append values serializable small atEnd
    fuel (by rwa [List.append_nil])
  rw [List.append_nil, List.append_nil] at parsed
  exact ⟨data, denotes, parsed⟩

/-! ## The round trip -/

/-- What `luaseri_pack` returns for values that survive the round trip. -/
theorem luaseriPack_of_serializable {values : List LuaValue}
    (serializable : ∀ value ∈ values, Serializable heap (MAX_DEPTH + 1) value)
    (small : (encode heap (MAX_DEPTH + 1) values).length < 2 ^ 31) :
    luaseriPack heap values = .ok (encode heap (MAX_DEPTH + 1) values,
      ((encode heap (MAX_DEPTH + 1) values).length : Int)) :=
  luaseriPack_eq heap values (fun value member => (serializable value member).packable) small

/-- What `luaseri_unpack` returns for their encoding. -/
theorem luaseriUnpack_of_serializable {values : List LuaValue}
    (serializable : ∀ value ∈ values, Serializable heap (MAX_DEPTH + 1) value)
    (small : (encode heap (MAX_DEPTH + 1) values).length < 2 ^ 31) {argument : UnpackArgument}
    (given : argument.Gives (encode heap (MAX_DEPTH + 1) values)) :
    ∃ data rb, luaseriUnpack argument = .ok data rb ∧
      List.Forall₂ (Denotes heap) values data := by
  obtain ⟨data, denotes, parsed⟩ := parseFrom_reads values serializable small
    ((encode heap (MAX_DEPTH + 1) values).length + 1) (Nat.lt_succ_self _)
  obtain ⟨rb, unpacked, _⟩ := unpackBuffer_of_parsed small parsed
  exact ⟨data, rb, (luaseriUnpack_of_gives given small).trans unpacked, denotes⟩

/-- **Unpacking what was packed gives it back**: the buffer and the length that
`luaseri_pack` returns are unpacked to values that the packed ones denote, in order. -/
theorem unpack_pack (heap : Heap) (values : List LuaValue)
    (serializable : ∀ value ∈ values, Serializable heap (MAX_DEPTH + 1) value)
    (small : (encode heap (MAX_DEPTH + 1) values).length < 2 ^ 31) :
    ∃ bytes len data rb, luaseriPack heap values = .ok (bytes, len) ∧
      luaseriUnpack (.pointer (some bytes) (BitVec.ofInt 64 len)) = .ok data rb ∧
      List.Forall₂ (Denotes heap) values data := by
  have packed := luaseriPack_of_serializable serializable small
  have length : (BitVec.ofInt 64 (encode heap (MAX_DEPTH + 1) values).length).toInt =
      (encode heap (MAX_DEPTH + 1) values).length := by
    rw [BitVec.toInt_ofInt]
    exact Int.bmod_eq_of_le (by omega) (by omega)
  have given : (UnpackArgument.pointer (some (encode heap (MAX_DEPTH + 1) values))
      (BitVec.ofInt 64 (encode heap (MAX_DEPTH + 1) values).length)).Gives
        (encode heap (MAX_DEPTH + 1) values) := ⟨rfl, length⟩
  obtain ⟨data, rb, unpacked, denotes⟩ := luaseriUnpack_of_serializable serializable small given
  exact ⟨_, _, data, rb, packed, unpacked, denotes⟩

/-- A table with a hole below its border and a table as a field, which is also packed on its
own: `{ [1] = true, [3] = "a", k = {} }`. -/
def nested : Heap
  | 0 =>
      { entries := [(.scalar (.string [0x6b]), .table 1), (index 3, .scalar (.string [0x61])),
          (index 1, .scalar (.boolean true))]
        border := 3
        keys_nodup := by decide
        isKey := by decide
        value_ne_nil := by decide
        border_le := by decide
        border_end := by decide }
  | _ =>
      { entries := []
        border := 0
        keys_nodup := by decide
        isKey := by decide
        value_ne_nil := by decide
        border_le := by decide
        border_end := by decide }

theorem serializable_nested :
    ∀ value ∈ [.table 0, .nil, .table 1], Serializable nested (MAX_DEPTH + 1) value := by
  have scalar (levels : Nat) (key : Scalar) :
      Serializable nested (levels + 1) (.scalar key) := trivial
  have inner (levels : Nat) : Serializable nested (levels + 1) (.table 1) := ⟨rfl, nofun⟩
  have outer : Serializable nested (MAX_DEPTH + 1) (.table 0) := by
    refine ⟨rfl, ?_⟩
    simp [nested, index, scalar, inner]
  have nil : Serializable nested (MAX_DEPTH + 1) .nil := trivial
  simp [outer, nil, inner]

theorem unpack_pack_nested :
    ∃ bytes len data rb,
      luaseriPack nested [.table 0, .nil, .table 1] = .ok (bytes, len) ∧
      luaseriUnpack (.pointer (some bytes) (BitVec.ofInt 64 len)) = .ok data rb ∧
      List.Forall₂ (Denotes nested) [.table 0, .nil, .table 1] data := by
  have size : (encode nested (MAX_DEPTH + 1) [.table 0, .nil, .table 1]).length = 13 := rfl
  apply unpack_pack nested [.table 0, .nil, .table 1] serializable_nested
  rw [size]
  omega

end EasyLua.Seri
