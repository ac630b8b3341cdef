import Mathlib.Algebra.Order.Ring.Int
import Mathlib.Data.List.Nodup

/-!
# Lua values

The values that `lua-seri.cpp` packs and unpacks. A table that is packed lives in a
heap, may be shared and may contain itself. A table that is unpacked is new, so it is
given by its fields. Integers, doubles and pointers are their 64 bits.
-/

namespace EasyLua.Seri

abbrev Bytes := List UInt8

/-- The non-nil values without identity that can be packed. -/
inductive Scalar
  | boolean (value : Bool)
  | integer (value : BitVec 64)
  | number (bits : BitVec 64)
  | lightUserdata (pointer : BitVec 64)
  | string (bytes : Bytes)
  deriving DecidableEq

/-- The biased exponent of a double. -/
def exponent (bits : BitVec 64) : Nat := bits.toNat / 2 ^ 52 % 2 ^ 11

/-- The fraction of a double. -/
def fraction (bits : BitVec 64) : Nat := bits.toNat % 2 ^ 52

def isNaN (bits : BitVec 64) : Bool := exponent bits = 2047 ∧ fraction bits ≠ 0

/-- `luaV_tointeger` of a double in its mode without rounding: the integer it equals. -/
def floatToInteger (bits : BitVec 64) : Option (BitVec 64) :=
  if exponent bits = 2047 then none
  else
    let mantissa := if exponent bits = 0 then fraction bits else fraction bits + 2 ^ 52
    let scale := max 1 (exponent bits)
    -- the magnitude is mantissa * 2 ^ (scale - 1075)
    if scale < 1075 ∧ mantissa % 2 ^ (1075 - scale) ≠ 0 then none
    else
      let magnitude :=
        if scale < 1075 then mantissa / 2 ^ (1075 - scale) else mantissa * 2 ^ (scale - 1075)
      let value : Int := if bits.msb then -magnitude else magnitude
      if -2 ^ 63 ≤ value ∧ value < 2 ^ 63 then some (BitVec.ofInt 64 value) else none

/-- The key under which a table stores a field: a float with an integer value is
converted. -/
def Scalar.toKey : Scalar → Scalar
  | .number bits =>
      match floatToInteger bits with
      | some value => .integer value
      | none => .number bits
  | scalar => scalar

def Scalar.isNaN : Scalar → Bool
  | .number bits => Seri.isNaN bits
  | _ => false

/-- A scalar as it occurs as a key in a table. -/
def Scalar.IsKey (scalar : Scalar) : Prop := scalar.isNaN = false ∧ scalar.toKey = scalar

instance : DecidablePred Scalar.IsKey := fun _ => inferInstanceAs (Decidable (_ ∧ _))

/-- The value of a stack slot. Functions, threads and full userdata cannot be packed; only
their type name and identity are kept. -/
inductive LuaValue
  | nil
  | scalar (value : Scalar)
  | table (ref : Nat)
  | unsupported (typename : String) (ref : Nat)
  deriving DecidableEq

/-- A value that can be a key. -/
def LuaValue.IsKey : LuaValue → Prop
  | .nil => False
  | .scalar key => key.IsKey
  | _ => True

instance : DecidablePred LuaValue.IsKey
  | .nil => inferInstanceAs (Decidable False)
  | .scalar key => inferInstanceAs (Decidable key.IsKey)
  | .table _ => inferInstanceAs (Decidable True)
  | .unsupported _ _ => inferInstanceAs (Decidable True)

/-- The field of a key in a list of entries, or nil. -/
def fieldOf (entries : List (LuaValue × LuaValue)) (key : LuaValue) : LuaValue :=
  match entries.find? fun entry => entry.1 = key with
  | some entry => entry.2
  | none => .nil

/-- The key of an array index. -/
def index (i : Int) : LuaValue := .scalar (.integer (BitVec.ofInt 64 i))

/-- A table: its non-nil fields in the order of `lua_next`, the border that `lua_rawlen`
returns, and what the iterator of its `__pairs` metafield yields, if it has one. -/
structure LuaTable where
  entries : List (LuaValue × LuaValue)
  border : Nat
  pairs : Option (List (LuaValue × LuaValue)) := none
  keys_nodup : (entries.map Prod.fst).Nodup
  isKey : ∀ entry ∈ entries, entry.1.IsKey
  value_ne_nil : ∀ entry ∈ entries, entry.2 ≠ .nil
  border_le : border = 0 ∨ fieldOf entries (index border) ≠ .nil
  border_end : fieldOf entries (index (border + 1)) = .nil

/-- The tables by their identity. -/
abbrev Heap := Nat → LuaTable

/-- `lua_rawget` on the stored form of the key. -/
def LuaTable.get (table : LuaTable) (key : LuaValue) : LuaValue := fieldOf table.entries key

/-- `lua_rawgeti`. -/
def LuaTable.rawgeti (table : LuaTable) (i : Int) : LuaValue := table.get (index i)

/-- An unpacked value. The fields of a table are its raw sets, newest first; a table used as
a key is new and so equal to no other key. -/
inductive Data
  | nil
  | scalar (value : Scalar)
  | table (fields : List (Scalar × Data)) (byTable : List (Data × Data))

/-- The value last set under a scalar key, or nil. -/
def Data.lookup (fields : List (Scalar × Data)) (key : Scalar) : Data :=
  match fields.find? fun field => field.1 = key with
  | some field => field.2
  | none => .nil

/-- A table under construction by the decoder. -/
structure NewTable where
  fields : List (Scalar × Data)
  byTable : List (Data × Data)

/-- `lua_createtable`. -/
def NewTable.empty : NewTable where
  fields := []
  byTable := []

/-- `lua_rawseti`. -/
def NewTable.rawseti (table : NewTable) (i : Int) (value : Data) : NewTable :=
  { table with fields := (.integer (BitVec.ofInt 64 i), value) :: table.fields }

/-- `lua_rawset`, which raises an error for a key that no table can have. -/
def NewTable.rawset (table : NewTable) (key value : Data) : Except String NewTable :=
  match key with
  | .nil => .error "table index is nil"
  | .scalar key =>
      if key.isNaN then .error "table index is NaN"
      else .ok { table with fields := (key.toKey, value) :: table.fields }
  | .table _ _ => .ok { table with byTable := (key, value) :: table.byTable }

def NewTable.toData (table : NewTable) : Data := .table table.fields table.byTable

/-- The value and the unpacked one are equal, tables field by field. -/
inductive Denotes (heap : Heap) : LuaValue → Data → Prop
  | nil : Denotes heap .nil .nil
  | scalar (value : Scalar) : Denotes heap (.scalar value) (.scalar value)
  | table (ref : Nat) (fields : List (Scalar × Data))
      (scalarKeys : ∀ entry ∈ (heap ref).entries, ∃ key, entry.1 = .scalar key)
      (same : ∀ key, Denotes heap ((heap ref).get (.scalar key)) (Data.lookup fields key)) :
      Denotes heap (.table ref) (.table fields [])

/-- A raw set changes its own field only. -/
theorem Data.lookup_cons (key other : Scalar) (value : Data) (fields : List (Scalar × Data)) :
    Data.lookup ((key, value) :: fields) other =
      if key = other then value else Data.lookup fields other := by
  unfold Data.lookup
  rw [List.find?_cons]
  by_cases same : key = other
  · simp [same]
  · simp [same]

/-- The field of an entry of a table is its value. -/
theorem LuaTable.get_of_mem (table : LuaTable) {key value : LuaValue}
    (member : (key, value) ∈ table.entries) : table.get key = value := by
  unfold LuaTable.get fieldOf
  obtain ⟨entry, found⟩ : ∃ entry, table.entries.find? (fun entry => entry.1 = key) = some entry :=
    List.find?_isSome.mpr ⟨(key, value), member, by simp⟩ |> Option.isSome_iff_exists.mp
  have inside := List.mem_of_find?_eq_some found
  have sameKey : entry.1 = key := by simpa using List.find?_some found
  rw [found]
  have injective := List.inj_on_of_nodup_map table.keys_nodup
  have same : entry = (key, value) := injective inside member sameKey
  rw [same]

/-- A field that no entry has is nil. -/
theorem LuaTable.get_eq_nil (table : LuaTable) {key : LuaValue}
    (absent : ∀ entry ∈ table.entries, entry.1 ≠ key) : table.get key = .nil := by
  unfold LuaTable.get fieldOf
  rw [List.find?_eq_none.mpr (by simpa using absent)]

/-- A field is nil, or it is the value of an entry. -/
theorem LuaTable.get_cases (table : LuaTable) (key : LuaValue) :
    table.get key = .nil ∨ (key, table.get key) ∈ table.entries := by
  by_cases found : ∃ entry ∈ table.entries, entry.1 = key
  · obtain ⟨⟨_, value⟩, member, rfl⟩ := found
    right
    rw [table.get_of_mem member]
    exact member
  · left
    exact table.get_eq_nil fun entry member same => found ⟨entry, member, same⟩

end EasyLua.Seri
