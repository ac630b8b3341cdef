import EasyLua.Seri.Bounds

/-!
# Decoded values in Lua

What the decoder returns can be stored: its tables have keys that a table can have, and no
more fields than the message has bytes. So there is a heap in which the decoded values
stand, with a table for each of theirs.
-/

namespace EasyLua.Seri

open Format

/-- A value whose tables, at any depth, have no more raw sets than the bound, under keys
that a table can have. -/
inductive Data.Decoded (bound : Nat) : Data → Prop
  | nil : Decoded bound .nil
  | scalar (value : Scalar) : Decoded bound (.scalar value)
  | table (fields : List (Scalar × Data)) (byTable : List (Data × Data))
      (count : fields.length ≤ bound) (keys : ∀ field ∈ fields, field.1.IsKey)
      (values : ∀ field ∈ fields, Decoded bound field.2) : Decoded bound (.table fields byTable)

/-- A table under construction while these bytes are left. -/
structure Filling (bound fuel : Nat) (table : NewTable) (input : Bytes) : Prop where
  short : input.length < fuel
  count : table.fields.length + input.length ≤ bound
  keys : ∀ field ∈ table.fields, field.1.IsKey
  values : ∀ field ∈ table.fields, field.2.Decoded bound

/-- A parser that returns decoded values. -/
def Decodes (bound fuel : Nat) (parser : ByteParser Data) : Prop :=
  ∀ input data rest, input.length < fuel → input.length ≤ bound →
    parser input = .ok (data, rest) → data.Decoded bound

variable {bound fuel : Nat} {one : ByteParser Data}

theorem Scalar.toKey_isKey {key : Scalar} (number : key.isNaN = false) : key.toKey.IsKey := by
  cases key with
  | number bits =>
      unfold Scalar.toKey
      simp only
      cases integer : floatToInteger bits with
      | some value => exact ⟨rfl, rfl⟩
      | none =>
          refine ⟨number, ?_⟩
          unfold Scalar.toKey
          simp only [integer]
  | boolean value => exact ⟨rfl, rfl⟩
  | integer value => exact ⟨rfl, rfl⟩
  | lightUserdata pointer => exact ⟨rfl, rfl⟩
  | string bytes => exact ⟨rfl, rfl⟩

namespace Filling

variable {table : NewTable} {input rest : Bytes}

theorem bound_le (filling : Filling bound fuel table input) : input.length ≤ bound :=
  Nat.le_trans (Nat.le_add_left _ _) filling.count

/-- Bytes may be consumed without a raw set. -/
theorem less (filling : Filling bound fuel table input) (fewer : rest.length ≤ input.length) :
    Filling bound fuel table rest where
  short := Nat.lt_of_le_of_lt fewer filling.short
  count := Nat.le_trans (Nat.add_le_add_left fewer _) filling.count
  keys := filling.keys
  values := filling.values

/-- A raw set under a scalar key is paid for by a byte. -/
theorem set (filling : Filling bound fuel table input) (fewer : rest.length < input.length)
    {key : Scalar} (isKey : key.IsKey) {value : Data} (decoded : value.Decoded bound) :
    Filling bound fuel { table with fields := (key, value) :: table.fields } rest where
  short := Nat.lt_trans fewer filling.short
  count := by
    have before := filling.count
    simp only [List.length_cons]
    omega
  keys := by
    intro field member
    rcases List.mem_cons.mp member with rfl | old
    · exact isKey
    · exact filling.keys field old
  values := by
    intro field member
    rcases List.mem_cons.mp member with rfl | old
    · exact decoded
    · exact filling.values field old

theorem rawset (filling : Filling bound fuel table input) (fewer : rest.length < input.length)
    {key value : Data} (decoded : value.Decoded bound) {after : NewTable}
    (set : table.rawset key value = .ok after) : Filling bound fuel after rest := by
  cases key with
  | nil => exact nomatch set
  | scalar key =>
      unfold NewTable.rawset at set
      simp only at set
      cases number : key.isNaN with
      | true =>
          rw [number] at set
          exact nomatch set
      | false =>
          rw [number] at set
          cases set
          exact filling.set fewer (Scalar.toKey_isKey number) decoded
  | table fields byTable =>
      cases set
      exact ⟨(filling.less fewer.le).short, (filling.less fewer.le).count, filling.keys,
        filling.values⟩

theorem toData (filling : Filling bound fuel table input) : table.toData.Decoded bound :=
  .table table.fields table.byTable (Nat.le_trans (Nat.le_add_right _ _) filling.count)
    filling.keys filling.values

end Filling

section Loops

variable (fueled : Fueled fuel 1 one) (decodes : Decodes bound fuel one)

include fueled decodes

theorem parseArray_decodes (count : Nat) (i : Int) {table after : NewTable} {input rest : Bytes}
    (filling : Filling bound fuel table input)
    (parsed : parseArray one count i table input = .ok (after, rest)) :
    Filling bound fuel after rest := by
  induction count generalizing i table input with
  | zero =>
      cases parsed
      exact filling
  | succ count ih =>
      obtain ⟨value, middle, first, later⟩ := Parser.of_bind_ok parsed
      have decoded := decodes _ _ _ filling.short filling.bound_le first
      have next : Filling bound fuel (table.rawseti i value) middle :=
        filling.set (fueled.consumes filling.short first) ⟨rfl, rfl⟩ decoded
      exact ih (i + 1) next later

/-- Every round of the second loop consumes a key and a value before its raw set. -/
theorem parseHash_decodes (rounds : Nat) {table : NewTable} {input rest : Bytes} {data : Data}
    (filling : Filling bound fuel table input)
    (parsed : parseHash one rounds table input = .ok (data, rest)) : data.Decoded bound := by
  induction rounds generalizing table input with
  | zero => exact nomatch parsed
  | succ rounds ih =>
      obtain ⟨key, middle, first, later⟩ := Parser.of_bind_ok parsed
      have atValue := filling.less (Nat.le_of_succ_le (fueled.consumes filling.short first))
      cases key with
      | nil =>
          cases later
          exact filling.toData
      | scalar _ | table _ _ =>
          obtain ⟨value, last, second, done⟩ := Parser.of_bind_ok later
          have decoded := decodes _ _ _ atValue.short atValue.bound_le second
          generalize set : table.rawset _ value = outcome at done
          cases outcome with
          | ok after =>
              exact ih (atValue.rawset (fueled.consumes atValue.short second) decoded set) done
          | error message => exact nomatch done

theorem parseTable_decodes (cookie : Nat) {input rest : Bytes} {data : Data}
    (short : input.length < fuel) (fits : input.length ≤ bound)
    (parsed : parseTable fuel one cookie input = .ok (data, rest)) : data.Decoded bound := by
  obtain ⟨arraySize, middle, size, later⟩ := Parser.of_bind_ok parsed
  obtain ⟨table, last, array, hash⟩ := Parser.of_bind_ok later
  have start : Filling bound fuel .empty input :=
    ⟨short, by rwa [NewTable.empty, List.length_nil, Nat.zero_add], nofun, nofun⟩
  have atArray : Filling bound fuel .empty middle :=
    start.less ((parseArraySize_fueled cookie).consumes short size)
  have filled := parseArray_decodes fueled decodes _ 1 atArray array
  exact parseHash_decodes fueled decodes fuel filled hash

end Loops

/-- A parser that wraps what another one returns as a scalar. -/
theorem scalar_decodes {α : Type} {parser : ByteParser α} {wrap : α → Scalar} {input rest : Bytes}
    {data : Data} (parsed : (do
      let value ← parser
      return Data.scalar (wrap value) : ByteParser Data) input = .ok (data, rest)) :
    data.Decoded bound := by
  obtain ⟨value, middle, first, later⟩ := Parser.of_bind_ok parsed
  cases later
  exact .scalar _

theorem parseString_decodes {length : Nat} {input rest : Bytes} {data : Data}
    (parsed : parseString length input = .ok (data, rest)) : data.Decoded bound :=
  scalar_decodes parsed

/-- A value after its header, one case per type. -/
theorem parseValue_decodes (fueled : Fueled fuel 1 one) (decodes : Decodes bound fuel one) :
    ∀ type cookie, Decodes bound fuel (parseValue fuel one type cookie)
  | 0, _, _, _, _, _, _, parsed => by
      cases parsed
      exact .nil
  | 1, _, _, _, _, _, _, parsed => by
      cases parsed
      exact .scalar _
  | 2, cookie, _, _, _, _, _, parsed => by
      unfold parseValue at parsed
      simp only at parsed
      split at parsed
      · exact scalar_decodes parsed
      · exact scalar_decodes parsed
  | 3, _, _, _, _, _, _, parsed => scalar_decodes parsed
  | 4, _, _, _, _, _, _, parsed => parseString_decodes parsed
  | 5, cookie, _, _, _, _, _, parsed => by
      unfold parseValue at parsed
      simp only at parsed
      split at parsed
      · obtain ⟨length, middle, _, later⟩ := Parser.of_bind_ok parsed
        exact parseString_decodes later
      · split at parsed
        · obtain ⟨length, middle, _, later⟩ := Parser.of_bind_ok parsed
          split at later
          · exact nomatch later
          · exact parseString_decodes later
        · exact nomatch parsed
  | 6, cookie, _, _, _, short, fits, parsed =>
      parseTable_decodes fueled decodes cookie short fits parsed
  | _ + 7, _, _, _, _, _, _, parsed => nomatch parsed

/-- One value, by induction on the fuel. -/
theorem parseOne_decodes (fuel : Nat) : Decodes bound fuel (parseOne fuel) := by
  induction fuel with
  | zero => exact fun _ _ _ short => absurd short (Nat.not_lt_zero _)
  | succ fuel ih =>
      intro input data rest short fits parsed
      obtain ⟨pair, middle, first, later⟩ := Parser.of_bind_ok parsed
      have consumed := parseHeader_fueled.consumes short first
      exact parseValue_decodes (parseOne_fueled fuel) ih pair.1 pair.2 middle data rest
        (by omega) (by omega) later

/-- **What the parser returns is decoded**, by induction on the fuel. -/
theorem parseFrom_decodes (fuel : Nat) {input rest : Bytes} {data : List Data}
    (short : input.length < fuel) (fits : input.length ≤ bound)
    (parsed : parseFrom fuel input = .ok (data, rest)) : ∀ value ∈ data, value.Decoded bound := by
  induction fuel generalizing input data with
  | zero => exact absurd short (Nat.not_lt_zero _)
  | succ fuel ih =>
      by_cases empty : input = []
      · subst empty
        cases parsed
        exact nofun
      unfold parseFrom at parsed
      rw [Parser.orEnd_of_ne_nil _ _ empty] at parsed
      obtain ⟨first, middle, one, later⟩ := Parser.of_bind_ok parsed
      obtain ⟨others, last, more, done⟩ := Parser.of_bind_ok later
      have consumed := (parseOne_fueled (fuel + 1)).consumes short one
      cases done
      intro value member
      rcases List.mem_cons.mp member with rfl | other
      · exact parseOne_decodes (fuel + 1) input value middle short fits one
      · exact ih (by omega) (by omega) more value other

/-- An unpacked message has been parsed. -/
theorem parsed_of_unpacked {argument : UnpackArgument} {bytes : Bytes}
    (given : argument.Gives bytes) (fits : bytes.length < 2 ^ 31) {data : List Data}
    {rb : ReadBlock} (unpacked : luaseriUnpack argument = .ok data rb) :
    ∃ rest, parseFrom (bytes.length + 1) bytes = .ok (data, rest) := by
  rw [luaseriUnpack_of_gives given fits] at unpacked
  cases parsed : parseFrom (bytes.length + 1) bytes with
  | ok pair =>
      obtain ⟨after, ran, _⟩ := unpackBuffer_of_parsed fits parsed
      rw [ran] at unpacked
      cases unpacked
      exact ⟨pair.2, rfl⟩
  | error failure =>
      obtain ⟨error, after, ran, _⟩ := unpackBuffer_of_failed fits parsed
      rw [ran] at unpacked
      exact nomatch unpacked

/-! ## Storing -/

/-- Only values that are not nil are fields, and none of them is under a table. -/
inductive Data.ScalarKeys : Data → Prop
  | nil : ScalarKeys .nil
  | scalar (value : Scalar) : ScalarKeys (.scalar value)
  | table (fields : List (Scalar × Data)) (byTable : List (Data × Data))
      (noTables : ∀ pair ∈ byTable, pair.2 = .nil)
      (values : ∀ key, ScalarKeys (Data.lookup fields key)) : ScalarKeys (.table fields byTable)

/-- The Lua value is the unpacked one: its tables are new, so they have no metatable, and
they have exactly the fields that were set last. -/
inductive Stands (heap : Heap) : LuaValue → Data → Prop
  | nil : Stands heap .nil .nil
  | scalar (value : Scalar) : Stands heap (.scalar value) (.scalar value)
  | table (ref : Nat) (fields : List (Scalar × Data)) (byTable : List (Data × Data))
      (noPairs : (heap ref).pairs = none)
      (scalarKeys : ∀ entry ∈ (heap ref).entries, ∃ key, entry.1 = .scalar key)
      (noTables : ∀ pair ∈ byTable, pair.2 = .nil)
      (same : ∀ key, Stands heap ((heap ref).get (.scalar key)) (Data.lookup fields key)) :
      Stands heap (.table ref) (.table fields byTable)

/-- A field is nil, or it was set. -/
theorem Data.lookup_cases (fields : List (Scalar × Data)) (key : Scalar) :
    Data.lookup fields key = .nil ∨ (key, Data.lookup fields key) ∈ fields := by
  unfold Data.lookup
  cases found : fields.find? fun field => field.1 = key with
  | none => exact Or.inl rfl
  | some field =>
      right
      have sameKey : field.1 = key := by simpa using List.find?_some found
      have inside := List.mem_of_find?_eq_some found
      subst sameKey
      exact inside

theorem index_inj {i j : Nat} (small : i < 2 ^ 32) (small' : j < 2 ^ 32)
    (same : index i = index j) : i = j := by
  have bits : BitVec.ofInt 64 i = BitVec.ofInt 64 j :=
    Scalar.integer.inj (LuaValue.scalar.inj same)
  have values := congrArg BitVec.toInt bits
  rw [BitVec.toInt_ofInt, BitVec.toInt_ofInt, Int.bmod_eq_of_le (by omega) (by omega),
    Int.bmod_eq_of_le (by omega) (by omega)] at values
  omega

theorem mem_keys_of_fieldOf {entries : List (LuaValue × LuaValue)} {key : LuaValue}
    (present : fieldOf entries key ≠ .nil) : key ∈ entries.map Prod.fst := by
  unfold fieldOf at present
  cases found : entries.find? fun entry => entry.1 = key with
  | none =>
      rw [found] at present
      exact absurd rfl present
  | some entry =>
      have sameKey : entry.1 = key := by simpa using List.find?_some found
      exact List.mem_map.mpr ⟨entry, List.mem_of_find?_eq_some found, sameKey⟩

/-- Of more indices than there are entries one is free. -/
theorem exists_free (entries : List (LuaValue × LuaValue)) (few : entries.length < 2 ^ 31) :
    ∃ n : Nat, fieldOf entries (index (n + 1)) = .nil := by
  by_contra none_
  push Not at none_
  have indices : ((List.range (entries.length + 1)).map fun n : Nat => index (n + 1)).Nodup := by
    refine List.Nodup.map_on ?_ List.nodup_range
    intro i below j below' same
    rw [List.mem_range] at below below'
    have equal : i + 1 = j + 1 := index_inj (by omega) (by omega) (by exact_mod_cast same)
    omega
  have taken : ((List.range (entries.length + 1)).map fun n : Nat => index (n + 1)) ⊆
      entries.map Prod.fst := by
    intro key member
    obtain ⟨n, _, rfl⟩ := List.mem_map.mp member
    exact mem_keys_of_fieldOf (none_ n)
  have tooMany := (indices.subperm taken).length_le
  rw [List.length_map, List.length_map, List.length_range] at tooMany
  omega

/-- Few entries have a border: the first free index comes after it. -/
theorem exists_border (entries : List (LuaValue × LuaValue)) (few : entries.length < 2 ^ 31) :
    ∃ border : Nat, (border = 0 ∨ fieldOf entries (index border) ≠ .nil) ∧
      fieldOf entries (index (border + 1)) = .nil := by
  have free := exists_free entries few
  refine ⟨Nat.find free, ?_, Nat.find_spec free⟩
  by_cases zero : Nat.find free = 0
  · exact Or.inl zero
  · right
    obtain ⟨before, next⟩ := Nat.exists_eq_succ_of_ne_zero zero
    have taken := Nat.find_min free (show before < Nat.find free by omega)
    rw [next]
    exact_mod_cast taken

/-- An unpacked value in a heap that has its tables at these places. -/
def Data.store (place : Data → Nat) : Data → LuaValue
  | .nil => .nil
  | .scalar value => .scalar value
  | .table fields byTable => .table (place (.table fields byTable))

theorem Data.store_ne_nil {place : Data → Nat} {data : Data} (present : data ≠ .nil) :
    data.store place ≠ .nil := by
  cases data with
  | nil => exact absurd rfl present
  | scalar value => nofun
  | table fields byTable => nofun

def Data.isNil : Data → Bool
  | .nil => true
  | _ => false

theorem Data.isNil_iff {data : Data} : data.isNil = true ↔ data = .nil := by
  cases data with
  | nil => simp [isNil]
  | scalar value => simp [isNil]
  | table fields byTable => simp [isNil]

/-- The keys of the fields that are not nil. -/
def Data.keys (fields : List (Scalar × Data)) : List Scalar :=
  (fields.map Prod.fst).dedup.filter fun key => !(Data.lookup fields key).isNil

theorem Data.mem_keys {fields : List (Scalar × Data)} {key : Scalar} :
    key ∈ Data.keys fields ↔ Data.lookup fields key ≠ .nil := by
  unfold Data.keys
  rw [List.mem_filter, List.mem_dedup, Bool.not_eq_true', Bool.eq_false_iff, ne_eq,
    Data.isNil_iff]
  refine ⟨And.right, fun present => ⟨?_, present⟩⟩
  have member := (Data.lookup_cases fields key).resolve_left present
  exact List.mem_map_of_mem member

/-- There is a table with the fields of an unpacked one. -/
theorem exists_table (place : Data → Nat) {fields : List (Scalar × Data)}
    (few : fields.length < 2 ^ 31) (isKey : ∀ field ∈ fields, field.1.IsKey) :
    ∃ table : LuaTable, table.pairs = none ∧
      (∀ entry ∈ table.entries, ∃ key, entry.1 = .scalar key) ∧
      ∀ key, table.get (.scalar key) = (Data.lookup fields key).store place := by
  let entries : List (LuaValue × LuaValue) := (Data.keys fields).map fun key =>
    (.scalar key, (Data.lookup fields key).store place)
  have short : entries.length < 2 ^ 31 := by
    have filtered : (Data.keys fields).length ≤ (fields.map Prod.fst).dedup.length :=
      List.length_filter_le _ _
    have deduped := (List.dedup_sublist (fields.map Prod.fst)).length_le
    rw [List.length_map] at deduped
    rw [List.length_map]
    omega
  obtain ⟨border, border_le, border_end⟩ := exists_border entries short
  have nodup : (entries.map Prod.fst).Nodup := by
    rw [List.map_map]
    refine List.Nodup.map_on ?_ ((List.nodup_dedup _).filter _)
    intro key _ other _ same
    exact LuaValue.scalar.inj same
  have keys : ∀ entry ∈ entries, entry.1.IsKey := by
    intro entry member
    obtain ⟨key, present, rfl⟩ := List.mem_map.mp member
    have field := (Data.lookup_cases fields key).resolve_left (Data.mem_keys.mp present)
    exact isKey _ field
  have values : ∀ entry ∈ entries, entry.2 ≠ .nil := by
    intro entry member
    obtain ⟨key, present, rfl⟩ := List.mem_map.mp member
    exact Data.store_ne_nil (Data.mem_keys.mp present)
  let table : LuaTable :=
    { entries := entries, border := border, keys_nodup := nodup, isKey := keys
      value_ne_nil := values, border_le := border_le, border_end := border_end }
  refine ⟨table, rfl, ?_, fun key => ?_⟩
  · intro entry member
    obtain ⟨key, _, rfl⟩ := List.mem_map.mp member
    exact ⟨key, rfl⟩
  · by_cases present : Data.lookup fields key = .nil
    · rw [present]
      refine table.get_eq_nil fun entry member same => ?_
      obtain ⟨other, inside, rfl⟩ := List.mem_map.mp member
      obtain rfl : other = key := LuaValue.scalar.inj same
      exact Data.mem_keys.mp inside present
    · exact table.get_of_mem (List.mem_map_of_mem (Data.mem_keys.mpr present))

/-- Decoded values with the fields of their tables. -/
structure Closed (bound : Nat) (all : List Data) : Prop where
  decoded : ∀ data ∈ all, data.Decoded bound
  fields : ∀ fields byTable, .table fields byTable ∈ all → ∀ field ∈ fields, field.2 ∈ all

theorem Closed.append {first second : List Data} (one : Closed bound first)
    (other : Closed bound second) : Closed bound (first ++ second) where
  decoded := by
    intro data member
    exact (List.mem_append.mp member).elim (one.decoded data) (other.decoded data)
  fields := by
    intro fields byTable member field inside
    rcases List.mem_append.mp member with left | right
    · exact List.mem_append_left _ (one.fields fields byTable left field inside)
    · exact List.mem_append_right _ (other.fields fields byTable right field inside)

/-- Values that each have a closed list have one together. -/
theorem exists_closed_of_each (items : List Data)
    (each : ∀ item ∈ items, ∃ all, item ∈ all ∧ Closed bound all) :
    ∃ all, items ⊆ all ∧ Closed bound all := by
  induction items with
  | nil => exact ⟨[], List.nil_subset _, nofun, nofun⟩
  | cons item items ih =>
      obtain ⟨one, inside, closed⟩ := each item List.mem_cons_self
      obtain ⟨others, insideOthers, closedOthers⟩ :=
        ih fun other member => each other (List.mem_cons_of_mem item member)
      refine ⟨one ++ others, ?_, closed.append closedOthers⟩
      refine List.cons_subset.mpr ⟨List.mem_append_left _ inside, ?_⟩
      exact fun other member => List.mem_append_right _ (insideOthers member)

/-- A decoded value is in a closed list, by induction on its tables. -/
theorem Data.Decoded.exists_closed {data : Data} (decoded : data.Decoded bound) :
    ∃ all, data ∈ all ∧ Closed bound all := by
  induction decoded with
  | nil =>
      refine ⟨[.nil], List.mem_cons_self, ?_, ?_⟩
      · simpa using Data.Decoded.nil
      · simp
  | scalar value =>
      refine ⟨[.scalar value], List.mem_cons_self, ?_, ?_⟩
      · simpa using Data.Decoded.scalar value
      · simp
  | table fields byTable count keys values ih =>
      obtain ⟨all, inside, closed⟩ := exists_closed_of_each (fields.map Prod.snd)
        fun item member => by
          obtain ⟨field, inside, rfl⟩ := List.mem_map.mp member
          exact ih field inside
      have child {field : Scalar × Data} (member : field ∈ fields) : field.2 ∈ all :=
        inside (List.mem_map_of_mem member)
      refine ⟨.table fields byTable :: all, List.mem_cons_self, ?_, ?_⟩
      · intro other member
        rcases List.mem_cons.mp member with rfl | old
        · exact .table fields byTable count keys values
        · exact closed.decoded other old
      · intro fields' byTable' member field inside'
        rcases List.mem_cons.mp member with same | old
        · cases same
          exact List.mem_cons_of_mem _ (child inside')
        · exact List.mem_cons_of_mem _ (closed.fields fields' byTable' old field inside')

/-- In a heap that has the tables of a closed list at their places, its values stand. -/
theorem stands_of_closed {all : List Data} {place : Data → Nat} {heap : Heap}
    (closed : Closed bound all)
    (tables : ∀ fields byTable, .table fields byTable ∈ all →
      (heap (place (.table fields byTable))).pairs = none ∧
      (∀ entry ∈ (heap (place (.table fields byTable))).entries, ∃ key, entry.1 = .scalar key) ∧
      ∀ key, (heap (place (.table fields byTable))).get (.scalar key) =
        (Data.lookup fields key).store place)
    {data : Data} (member : data = .nil ∨ data ∈ all) (scalarKeys : data.ScalarKeys) :
    Stands heap (data.store place) data := by
  induction scalarKeys with
  | nil => exact .nil
  | scalar value => exact .scalar value
  | table fields byTable noTables values ih =>
      have inside := member.resolve_left nofun
      obtain ⟨noPairs, keys, same⟩ := tables fields byTable inside
      refine .table _ fields byTable noPairs keys noTables fun key => ?_
      rw [same key]
      have field := Data.lookup_cases fields key
      exact ih key (field.imp_right (closed.fields fields byTable inside _))

/-- **Decoded values can be stored in a heap.** -/
theorem exists_stands (small : bound < 2 ^ 31) {data : List Data}
    (decoded : ∀ value ∈ data, value.Decoded bound)
    (scalarKeys : ∀ value ∈ data, value.ScalarKeys) :
    ∃ heap values, List.Forall₂ (Stands heap) values data := by
  obtain ⟨all, inside, closed⟩ :=
    exists_closed_of_each data fun value member => (decoded value member).exists_closed
  have everywhere : ∀ value : Data, ∃ i : Nat, value ∈ all → all[i]? = some value := by
    intro value
    by_cases member : value ∈ all
    · obtain ⟨i, found⟩ := List.mem_iff_getElem?.mp member
      exact ⟨i, fun _ => found⟩
    · exact ⟨0, fun other => absurd other member⟩
  choose place found using everywhere
  have table : ∀ ref : Nat, ∃ table : LuaTable, ∀ fields byTable,
      all[ref]? = some (.table fields byTable) → table.pairs = none ∧
        (∀ entry ∈ table.entries, ∃ key, entry.1 = .scalar key) ∧
        ∀ key, table.get (.scalar key) = (Data.lookup fields key).store place := by
    intro ref
    by_cases stored : ∃ fields byTable, all[ref]? = some (.table fields byTable)
    · obtain ⟨fields, byTable, stored⟩ := stored
      cases closed.decoded _ (List.mem_of_getElem? stored) with
      | table _ _ count keys _ =>
          obtain ⟨table, stands⟩ := exists_table place (Nat.lt_of_le_of_lt count small) keys
          refine ⟨table, fun fields' byTable' stored' => ?_⟩
          rw [stored] at stored'
          cases stored'
          exact stands
    · obtain ⟨blank, _⟩ := @exists_table place [] (by decide) nofun
      exact ⟨blank, fun fields byTable same => absurd ⟨fields, byTable, same⟩ stored⟩
  choose heap tables using table
  refine ⟨heap, data.map (Data.store place), ?_⟩
  rw [List.forall₂_map_left_iff, List.forall₂_same]
  intro value member
  refine stands_of_closed closed ?_ (Or.inr (inside member)) (scalarKeys value member)
  exact fun fields byTable member => tables _ fields byTable (found _ member)

end EasyLua.Seri
