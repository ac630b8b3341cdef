import EasyLua.Seri.Decoded
import EasyLua.Seri.Reach
import EasyLua.Seri.RoundTrip

/-!
# Forwarding what was decoded

A virtual machine may pass on what it has received. The decoder accepts tables nested to
any depth, and many streams that the packer never writes. What it returns can be packed
again unless it is nested beyond `MAX_DEPTH`, and then unpacks to the same values.
-/

namespace EasyLua.Seri

open Format

/-- Two unpacked values are equal, tables field by field. -/
inductive Data.Same : Data → Data → Prop
  | nil : Same .nil .nil
  | scalar (value : Scalar) : Same (.scalar value) (.scalar value)
  | table (fields fields' : List (Scalar × Data)) (byTable byTable' : List (Data × Data))
      (noTables : ∀ pair ∈ byTable, pair.2 = .nil) (noTables' : ∀ pair ∈ byTable', pair.2 = .nil)
      (same : ∀ key, Same (Data.lookup fields key) (Data.lookup fields' key)) :
      Same (.table fields byTable) (.table fields' byTable')

/-- The value has something inside so many nested tables. -/
inductive Data.Nests : Data → Nat → Prop
  | here (data : Data) : Nests data 0
  | inside (fields : List (Scalar × Data)) (byTable : List (Data × Data)) (key : Scalar)
      (depth : Nat) (present : Data.lookup fields key ≠ .nil)
      (deeper : Nests (Data.lookup fields key) depth) : Nests (.table fields byTable) (depth + 1)

variable {heap : Heap} {value : LuaValue} {data : Data} {levels : Nat}

theorem Stands.eq_nil_iff (stands : Stands heap value data) : value = .nil ↔ data = .nil := by
  cases stands with
  | nil => exact ⟨fun _ => rfl, fun _ => rfl⟩
  | scalar value => exact ⟨nofun, nofun⟩
  | table ref fields byTable noPairs scalarKeys noTables same => exact ⟨nofun, nofun⟩

/-- An unpacked value equals every other one that denotes the same Lua value. -/
theorem Stands.same (stands : Stands heap value data) {other : Data}
    (denotes : Denotes heap value other) : data.Same other := by
  induction stands generalizing other with
  | nil =>
      cases denotes
      exact .nil
  | scalar value =>
      cases denotes
      exact .scalar value
  | table ref fields byTable noPairs scalarKeys noTables same ih =>
      cases denotes with
      | table ref fields' scalarKeys' same' =>
          exact .table fields fields' byTable [] noTables nofun fun key => ih key (same' key)

/-- What is nested no deeper than the levels that are left survives the round trip. -/
theorem Stands.serializable (stands : Stands heap value data) (shallow : ¬ data.Nests levels) :
    Serializable heap levels value := by
  induction levels generalizing value data with
  | zero => exact shallow (.here data)
  | succ levels ih =>
      cases stands with
      | nil => trivial
      | scalar value => trivial
      | table ref fields byTable noPairs scalarKeys noTables same =>
          refine ⟨noPairs, fun entry member => ⟨scalarKeys entry member, ?_⟩⟩
          obtain ⟨key, isScalar⟩ := scalarKeys entry member
          have field : (heap ref).get (.scalar key) = entry.2 := by
            rw [← isScalar]
            exact (heap ref).get_of_mem member
          have child := same key
          rw [field] at child
          have present : Data.lookup fields key ≠ .nil :=
            child.eq_nil_iff.not.mp ((heap ref).value_ne_nil entry member)
          exact ih child fun deep => shallow (.inside fields byTable key levels present deep)

/-- What is nested deeper does not fit. -/
theorem Stands.not_fits (stands : Stands heap value data) (deep : data.Nests levels) :
    ¬ Fits heap levels value := by
  induction deep generalizing value with
  | here data => exact id
  | inside fields byTable key depth present deeper ih =>
      cases stands with
      | table ref _ _ noPairs scalarKeys noTables same =>
          intro fits
          have field := ((heap ref).get_cases (.scalar key)).resolve_left
            ((same key).eq_nil_iff.not.mpr present)
          exact ih (same key) (fits _ field).2

/-- What survives the round trip fits. -/
theorem Serializable.fits (serializable : Serializable heap levels value) :
    Fits heap levels value := by
  refine serializable.induction (fun _ => trivial) (fun _ _ => trivial) ?_
  intro levels ref _ entries ih entry member
  obtain ⟨⟨key, isScalar⟩, inner⟩ := entries entry member
  refine ⟨?_, ih _ inner⟩
  rw [isScalar]
  exact ih _ (inner.key key)

theorem Stands.fits_iff (stands : Stands heap value data) :
    Fits heap levels value ↔ ¬ data.Nests levels :=
  ⟨fun fits deep => stands.not_fits deep fits, fun shallow => (stands.serializable shallow).fits⟩

/-- An element of a related list has a partner. -/
theorem exists_of_forall₂ {α β : Type} {related : α → β → Prop} {left : List α} {right : List β}
    (all : List.Forall₂ related left right) {one : α} (member : one ∈ left) :
    ∃ other ∈ right, related one other := by
  induction all with
  | nil => exact absurd member List.not_mem_nil
  | cons head tail ih =>
      rcases List.mem_cons.mp member with rfl | later
      · exact ⟨_, List.mem_cons_self, head⟩
      · obtain ⟨other, inside, both⟩ := ih later
        exact ⟨other, List.mem_cons_of_mem _ inside, both⟩

section Call

variable {values : List LuaValue} {all : List Data}

/-- Everything that unpacked values unfold to is part of them. -/
theorem exists_stands_of_reaches (stands : List.Forall₂ (Stands heap) values all) {depth : Nat}
    (reaches : Reaches heap values depth value) : ∃ data, Stands heap value data := by
  induction reaches with
  | argument member =>
      obtain ⟨data, _, one⟩ := exists_of_forall₂ stands member
      exact ⟨data, one⟩
  | key table member ih =>
      obtain ⟨_, one⟩ := ih
      cases one with
      | table ref fields byTable noPairs scalarKeys noTables same =>
          obtain ⟨key, isScalar⟩ := scalarKeys _ member
          rw [isScalar]
          exact ⟨_, .scalar key⟩
  | @value depth ref entry table member ih =>
      obtain ⟨_, one⟩ := ih
      cases one with
      | table _ fields byTable noPairs scalarKeys noTables same =>
          obtain ⟨key, isScalar⟩ := scalarKeys _ member
          have field : (heap ref).get (.scalar key) = entry.2 := by
            rw [← isScalar]
            exact (heap ref).get_of_mem member
          have child := same key
          rw [field] at child
          exact ⟨_, child⟩

theorem noPairs_of_stands (stands : List.Forall₂ (Stands heap) values all) (depth ref : Nat)
    (reaches : Reaches heap values depth (.table ref)) : (heap ref).pairs = none := by
  obtain ⟨_, one⟩ := exists_stands_of_reaches stands reaches
  cases one with
  | table _ fields byTable noPairs scalarKeys noTables same => exact noPairs

/-- All arguments fit exactly when none of the unpacked values is nested too deep. -/
theorem fits_iff_shallow (stands : List.Forall₂ (Stands heap) values all) :
    (∀ value ∈ values, Fits heap levels value) ↔ ∀ data ∈ all, ¬ data.Nests levels := by
  constructor
  · intro fits data member
    obtain ⟨value, inside, one⟩ := exists_of_forall₂ stands.flip member
    exact one.fits_iff.mp (fits value inside)
  · intro shallow value member
    obtain ⟨data, inside, one⟩ := exists_of_forall₂ stands member
    exact one.fits_iff.mpr (shallow data inside)

/-- `luaseri_pack` takes unpacked values unless one of them is nested too deep. -/
theorem luaseriPack_of_stands (stands : List.Forall₂ (Stands heap) values all) :
    ((∀ data ∈ all, ¬ data.Nests 33) → ∃ buffer, luaseriPack heap values = .ok buffer) ∧
      ((¬ ∀ data ∈ all, ¬ data.Nests 33) →
        ∃ message, luaseriPack heap values = .error message) := by
  obtain ⟨succeeds, fails⟩ := luaseriPack_of_reaches (noPairs_of_stands stands)
  have fitting : (∀ value ∈ values, Fits heap (MAX_DEPTH + 1) value) ↔
      ∀ data ∈ all, ¬ data.Nests 33 := fits_iff_shallow stands
  exact ⟨fun shallow => succeeds (fitting.mpr shallow), fun deep => fails (fitting.not.mpr deep)⟩

theorem forall₂_same (stands : List.Forall₂ (Stands heap) values all) {others : List Data}
    (denotes : List.Forall₂ (Denotes heap) values others) : List.Forall₂ Data.Same all others := by
  induction stands generalizing others with
  | nil =>
      cases denotes
      exact .nil
  | cons one _ ih =>
      cases denotes with
      | cons first rest => exact .cons (one.same first) (ih rest)

end Call

/-- **What the decoder accepts can be forwarded unless it is nested too deep.** The values
that `luaseri_unpack` has returned stand in some heap. In every heap in which they do, and in
which their encoding is not too long for the `int` that counts it, `luaseri_pack` takes them
exactly when nothing in them is inside 33 tables, and then its output is unpacked to equal
values. -/
theorem forward_iff (argument : UnpackArgument) (bytes : Bytes) (given : argument.Gives bytes)
    (fits : bytes.length < 2 ^ 31) (data : List Data) (rb : ReadBlock)
    (unpacked : luaseriUnpack argument = .ok data rb)
    (scalarKeys : ∀ value ∈ data, value.ScalarKeys) :
    (∃ heap values, List.Forall₂ (Stands heap) values data) ∧
      ∀ heap values, List.Forall₂ (Stands heap) values data →
        (encode heap (MAX_DEPTH + 1) values).length < 2 ^ 31 →
          ((∃ buffer, luaseriPack heap values = .ok buffer) ↔
            ∀ value ∈ data, ¬ value.Nests 33) ∧
          ∀ bytes' len, luaseriPack heap values = .ok (bytes', len) →
            len = bytes'.length ∧ ∀ argument' : UnpackArgument, argument'.Gives bytes' →
              ∃ data' rb', luaseriUnpack argument' = .ok data' rb' ∧
                List.Forall₂ Data.Same data data' := by
  obtain ⟨rest, parsed⟩ := parsed_of_unpacked given fits unpacked
  have decoded := parseFrom_decodes _ (Nat.lt_succ_self _) (Nat.le_refl _) parsed
  refine ⟨exists_stands fits decoded scalarKeys, fun heap values stands small => ?_⟩
  obtain ⟨succeeds, fails⟩ := luaseriPack_of_stands stands
  have packs : (∃ buffer, luaseriPack heap values = .ok buffer) ↔
      ∀ value ∈ data, ¬ value.Nests 33 := by
    refine ⟨fun packed => ?_, succeeds⟩
    by_contra deep
    obtain ⟨message, stopped⟩ := fails deep
    obtain ⟨buffer, packed⟩ := packed
    rw [stopped] at packed
    exact nomatch packed
  refine ⟨packs, fun bytes' len packed => ?_⟩
  have shallow := packs.mp ⟨_, packed⟩
  have serializable : ∀ value ∈ values, Serializable heap (MAX_DEPTH + 1) value := by
    intro value member
    obtain ⟨one, inside, standsOne⟩ := exists_of_forall₂ stands member
    exact standsOne.serializable (shallow one inside)
  rw [luaseriPack_of_serializable serializable small] at packed
  cases packed
  refine ⟨rfl, fun argument' given' => ?_⟩
  obtain ⟨data', rb', ran, denotes⟩ := luaseriUnpack_of_serializable serializable small given'
  exact ⟨data', rb', ran, forall₂_same stands denotes⟩

/-- A table `{ value }` stands for raw sets of its field, the last of which counts. -/
theorem single_stands {heap : Heap} {ref : Nat} {value : LuaValue} {present : value ≠ .nil}
    {data : Data} (table : heap ref = single value present) (stands : Stands heap value data)
    {before : List (Scalar × Data)} (overwritten : ∀ field ∈ before, field.1 = .integer 1) :
    Stands heap (.table ref) (.table ((.integer 1, data) :: before) []) := by
  refine .table ref _ [] ?_ ?_ nofun fun key => ?_
  · rw [table]
    rfl
  · rw [table]
    intro entry member
    rw [List.mem_singleton.mp member]
    exact ⟨.integer 1, rfl⟩
  · rw [table, Data.lookup_cons]
    by_cases one : key = .integer 1
    · subst one
      rw [if_pos rfl]
      exact stands
    · have absent : (single value present).get (.scalar key) = .nil := by
        refine (single value present).get_eq_nil fun entry member same => one ?_
        rw [List.mem_singleton.mp member] at same
        exact (LuaValue.scalar.inj same).symm
      have unset : Data.lookup before key = .nil := by
        refine (Data.lookup_cases before key).resolve_right fun member => ?_
        exact one (overwritten _ member)
      rw [if_neg (Ne.symm one), absent, unset]
      exact .nil

/-- A table `{ true }` in a form that the packer does not write: no array part, an integer
that is wider than necessary, and a field that is set twice. -/
def loose : Bytes := [0x06, 0x12, 0x01, 0x00, 0x01, 0x0a, 0x01, 0x09, 0x00]

theorem forward_iff_loose :
    ∃ data rb heap values bytes len data' rb', luaseriUnpack (.string loose) = .ok data rb ∧
      List.Forall₂ (Stands heap) values data ∧ luaseriPack heap values = .ok (bytes, len) ∧
      luaseriUnpack (.string bytes) = .ok data' rb' ∧ List.Forall₂ Data.Same data data' := by
  let heap : Heap := fun _ => single (.scalar (.boolean true)) nofun
  let fields : List (Scalar × Data) :=
    [(.integer 1, .scalar (.boolean true)), (.integer 1, .scalar (.boolean false))]
  have value (key : Scalar) : Data.lookup fields key = .nil ∨
      ∃ value, Data.lookup fields key = .scalar value := by
    rcases Data.lookup_cases fields key with absent | member
    · exact Or.inl absent
    · right
      rcases List.mem_cons.mp member with same | later
      · exact ⟨_, congrArg Prod.snd same⟩
      · exact ⟨_, congrArg Prod.snd (List.mem_singleton.mp later)⟩
  have parsed : parseFrom 10 loose = .ok ([.table fields []], []) := rfl
  obtain ⟨rb, ran, _⟩ := unpackBuffer_of_parsed (show loose.length < 2 ^ 31 by decide) parsed
  have unpacked : luaseriUnpack (.string loose) = .ok [.table fields []] rb := ran
  have scalarKeys : Data.ScalarKeys (.table fields []) := by
    refine .table fields [] nofun fun key => ?_
    rcases value key with absent | ⟨value, same⟩
    · rw [absent]
      exact .nil
    · rw [same]
      exact .scalar value
  have stands : List.Forall₂ (Stands heap) [.table 0] [.table fields []] :=
    .cons (single_stands rfl (.scalar _) (by simp)) .nil
  have small : (encode heap (MAX_DEPTH + 1) [.table 0]).length < 2 ^ 31 := by
    have length : (encode heap (MAX_DEPTH + 1) [.table 0]).length = 3 := rfl
    omega
  obtain ⟨packs, roundTrip⟩ := (forward_iff (.string loose) loose rfl (by decide) _ rb unpacked
    (by simpa using scalarKeys)).2 heap [.table 0] stands small
  have shallow : ¬ Data.Nests (.table fields []) 33 := by
    rintro (_ | ⟨_, _, key, _, present, deeper⟩)
    obtain ⟨scalar, same⟩ := (value key).resolve_left present
    rw [same] at deeper
    cases deeper
  obtain ⟨⟨bytes, len⟩, packed⟩ := packs.mpr (by simpa using shallow)
  obtain ⟨data', rb', again, same⟩ := (roundTrip bytes len packed).2 (.string bytes) rfl
  exact ⟨_, rb, heap, _, bytes, len, data', rb', unpacked, stands, packed, again, same⟩

/-! ## Nested too deep -/

/-- A value in so many tables. -/
def nest : Nat → Data
  | 0 => .scalar (.boolean true)
  | depth + 1 => .table [(.integer 1, nest depth)] []

/-- Its bytes: each table with an array part of one field, the field, and the closing nil. -/
def nestBytes : Nat → Bytes
  | 0 => [header 1 1]
  | depth + 1 => header 6 1 :: nestBytes depth ++ [header 0 0]

/-- The decoder takes tables nested to any depth. -/
theorem parseOne_nest (depth fuel : Nat) (rest : Bytes) :
    parseOne (fuel + depth + 1) (nestBytes depth ++ rest) = .ok (nest depth, rest) := by
  induction depth generalizing rest with
  | zero => exact parseOne_header (by omega) (by omega)
  | succ depth ih =>
      have field := ih (header 0 0 :: rest)
      have closing : parseOne (fuel + depth + 1) (header 0 0 :: rest) = .ok (.nil, rest) :=
        parseOne_header (by omega) (by omega)
      have array : parseArray (parseOne (fuel + depth + 1)) 1 1 .empty
          (nestBytes depth ++ header 0 0 :: rest) =
            .ok (⟨[(.integer 1, nest depth)], []⟩, header 0 0 :: rest) := by
        unfold parseArray
        rw [Parser.bind_run_of_ok field]
        rfl
      unfold nestBytes
      rw [List.cons_append, List.cons_append, List.append_assoc, List.singleton_append,
        parseOne_header (by omega) (by omega)]
      change (parseArray (parseOne (fuel + depth + 1)) 1 1 .empty >>= fun table =>
        parseHash (parseOne (fuel + depth + 1)) (fuel + depth + 1) table) _ = _
      rw [Parser.bind_run_of_ok array]
      unfold parseHash
      rw [Parser.bind_run_of_ok closing]
      rfl

theorem length_nestBytes (depth : Nat) : (nestBytes depth).length = 2 * depth + 1 := by
  induction depth with
  | zero => rfl
  | succ depth ih =>
      rw [nestBytes, List.length_append, List.length_cons, ih, List.length_singleton]
      omega

theorem nest_unpacked (depth : Nat) (small : depth < 2 ^ 29) :
    ∃ rb, luaseriUnpack (.string (nestBytes depth)) = .ok [nest depth] rb := by
  have length := length_nestBytes depth
  have parsed : parseFrom ((nestBytes depth).length + 1) (nestBytes depth) =
      .ok ([nest depth], []) := by
    have one := parseOne_nest depth (depth + 1) []
    have atEnd : parseFrom (depth + 1 + depth) [] = .ok ([], []) := by
      rw [show depth + 1 + depth = depth + depth + 1 by omega]
      rfl
    have some_ : nestBytes depth ≠ [] := List.ne_nil_of_length_pos (by omega)
    rw [List.append_nil] at one
    rw [length, show 2 * depth + 1 + 1 = depth + 1 + depth + 1 by omega, parseFrom,
      Parser.orEnd_of_ne_nil _ _ some_, Parser.bind_run_of_ok one, Parser.bind_run_of_ok atEnd]
    rfl
  obtain ⟨rb, ran, _⟩ := unpackBuffer_of_parsed (by omega) parsed
  have given : (UnpackArgument.string (nestBytes depth)).Gives (nestBytes depth) := rfl
  exact ⟨rb, (luaseriUnpack_of_gives given (by omega)).trans ran⟩

/-- A table in 32 others in Lua, with a field. -/
def tooDeep : Heap := fun ref =>
  if ref < 32 then single (.table (ref + 1)) nofun else single (.scalar (.boolean true)) nofun

theorem tooDeep_stands (depth : Nat) (le : depth ≤ 32) :
    Stands tooDeep (.table (32 - depth)) (nest (depth + 1)) := by
  induction depth with
  | zero =>
      have table : tooDeep 32 = single (.scalar (.boolean true)) nofun := rfl
      exact single_stands table (.scalar _) nofun
  | succ depth ih =>
      have inner := ih (by omega)
      have table : tooDeep (32 - (depth + 1)) = single (.table (32 - (depth + 1) + 1)) nofun :=
        if_pos (by omega)
      rw [show 32 - depth = 32 - (depth + 1) + 1 by omega] at inner
      exact single_stands table inner nofun

theorem nest_nests (depth : Nat) : (nest depth).Nests depth := by
  induction depth with
  | zero => exact .here _
  | succ depth ih =>
      refine .inside _ [] (.integer 1) depth ?_ ih
      cases depth <;> nofun

theorem nest_scalarKeys (depth : Nat) : (nest depth).ScalarKeys := by
  induction depth with
  | zero => exact .scalar _
  | succ depth ih =>
      refine .table _ [] nofun fun key => ?_
      rw [Data.lookup_cons]
      split
      · exact ih
      · exact .nil

/-- **A table that the decoder accepts and the packer does not.** -/
theorem tooDeep_not_forwarded :
    ∃ data rb heap values message, luaseriUnpack (.string (nestBytes 33)) = .ok data rb ∧
      (∀ value ∈ data, value.ScalarKeys) ∧ List.Forall₂ (Stands heap) values data ∧
      (encode heap (MAX_DEPTH + 1) values).length < 2 ^ 31 ∧
      luaseriPack heap values = .error message := by
  obtain ⟨rb, unpacked⟩ := nest_unpacked 33 (by omega)
  have stands : List.Forall₂ (Stands tooDeep) [.table 0] [nest 33] :=
    .cons (tooDeep_stands 32 (Nat.le_refl 32)) .nil
  obtain ⟨message, stopped⟩ := (luaseriPack_of_stands stands).2 fun shallow =>
    shallow (nest 33) List.mem_cons_self (nest_nests 33)
  have small : (encode tooDeep (MAX_DEPTH + 1) [.table 0]).length < 2 ^ 31 := by
    have length : (encode tooDeep (MAX_DEPTH + 1) [.table 0]).length = 66 := rfl
    omega
  refine ⟨[nest 33], rb, tooDeep, [.table 0], message, unpacked, ?_, stands, small, stopped⟩
  intro value member
  rw [List.mem_singleton.mp member]
  exact nest_scalarKeys 33

end EasyLua.Seri
