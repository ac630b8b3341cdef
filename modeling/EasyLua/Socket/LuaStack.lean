import EasyLua.Foundation.IndexedStack
import Mathlib.Algebra.Order.Ring.Int

/-!
# The Lua stack of the socket functions

The calls of the Lua API with which `socketmodule.cpp` builds the values that it returns, on
the stack of one C function. Tables are references to their entries, so a value can be pushed
twice and still be one table.
-/

namespace EasyLua

namespace Socket

/-- A Lua value. -/
inductive Value
  | nil
  | integer (n : Int64)
  | string (bytes : List UInt8)
  | table (ref : Nat)
  /-- What `createErrorObj` makes. -/
  | errorObj (exceptTypeName errorMsg : String) (code : Int32)
  /-- A userdata or a function. -/
  | object (id : Nat)
  deriving DecidableEq

/-- The value of a string literal. -/
def Value.literal (text : String) : Value := .string text.toUTF8.toList

/-- The loop of `ByteArray.toList`, which collects the bytes in reverse. -/
theorem toList_loop (bytes : ByteArray) (i : Nat) (reversed : List UInt8) :
    ByteArray.toList.loop bytes i reversed = reversed.reverse ++ bytes.data.toList.drop i := by
  induction i, reversed using ByteArray.toList.loop.induct bytes with
  | case1 i reversed inside ih =>
      have bound : i < bytes.data.toList.length := inside
      have byte : bytes.get! i = bytes.data.toList[i] := getElem!_pos bytes.data i inside
      rw [ByteArray.toList.loop, if_pos inside, ih, List.reverse_cons, List.append_assoc, byte,
        List.singleton_append, List.getElem_cons_drop]
  | case2 i reversed done =>
      have beyond : bytes.data.toList.length ≤ i := Nat.not_lt.mp done
      rw [ByteArray.toList.loop, if_neg done, List.drop_eq_nil_of_le beyond, List.append_nil]

theorem toList_eq (bytes : ByteArray) : bytes.toList = bytes.data.toList :=
  toList_loop bytes 0 []

/-- Different texts are different values. -/
theorem Value.literal_inj {text other : String}
    (same : Value.literal text = Value.literal other) : text = other := by
  have bytes := Value.string.inj same
  rw [toList_eq, toList_eq] at bytes
  exact String.toByteArray_inj.mp (ByteArray.ext (Array.toList_inj.mp bytes))

/-- The entries of a table, in the order in which they were made. -/
abbrev Table := List (Value × Value)

/-- `t[key] = value`. -/
def Table.set (table : Table) (key value : Value) : Table :=
  if table.any fun entry => entry.1 = key then
    table.map fun entry => if entry.1 = key then (key, value) else entry
  else table ++ [(key, value)]

/-- `t[key]`. -/
def Table.get (table : Table) (key : Value) : Value :=
  match table.find? fun entry => entry.1 = key with
  | some entry => entry.2
  | none => .nil

/-- A key that is set holds its value, and the others hold theirs. -/
theorem Table.get_set (table : Table) (key value other : Value) :
    (table.set key value).get other = if other = key then value else table.get other := by
  unfold Table.set
  by_cases present : table.any fun entry => entry.1 = key
  · have sameKeys : ((fun entry : Value × Value => decide (entry.1 = other)) ∘
        fun entry => if entry.1 = key then (key, value) else entry) =
          fun entry => decide (entry.1 = other) := by
      funext entry
      by_cases here : entry.1 = key <;> simp [here]
    rw [if_pos present]
    unfold Table.get
    rw [List.find?_map, sameKeys]
    cases found : table.find? (fun entry => entry.1 = other) with
    | some entry =>
        have isOther : entry.1 = other := by
          simpa using List.find?_some found
        by_cases asked : other = key <;> simp [isOther, asked]
    | none =>
        have asked : other ≠ key := by
          rintro rfl
          obtain ⟨entry, member, isKey⟩ := List.any_eq_true.mp present
          exact List.find?_eq_none.mp found entry member isKey
        simp [asked]
  · have nowhere : table.find? (fun entry => entry.1 = key) = none := by
      rw [List.find?_eq_none]
      intro entry member isKey
      exact present (List.any_eq_true.mpr ⟨entry, member, isKey⟩)
    rw [if_neg present]
    unfold Table.get
    rw [List.find?_append]
    by_cases asked : other = key
    · rw [asked, nowhere]
      simp
    · have apart : ¬ key = other := fun same => asked same.symm
      cases found : table.find? (fun entry => entry.1 = other) <;> simp [asked, apart]

/-- The stack with its top first, the first upvalue of the running function, and the tables. -/
structure LuaState where
  stack : List Value
  upvalue : Value
  tables : List Table

/-- Why a function does not return. -/
inductive Failure
  /-- `lua_error` with this error object. -/
  | lua (error : Value)
  /-- `luaL_argerror` for this argument. -/
  | argument (arg : Int) (message : String)
  /-- The error of `checkInstance`. -/
  | notInstance
  /-- `luaL_error` with this message. -/
  | error (message : String)
  /-- A use of the API that Lua does not define. -/
  | undefined

abbrev LuaM := EStateM Failure LuaState

def LUA_REGISTRYINDEX : Int := -1001000

def lua_upvalueindex (i : Int) : Int := LUA_REGISTRYINDEX - i

/-- `lua_gettop`. -/
def lua_gettop : LuaM Int := fun state => .ok state.stack.length state

/-- The value at an index. -/
def index2addr (idx : Int) : LuaM Value := fun state =>
  if idx = lua_upvalueindex 1 then .ok state.upvalue state
  else
    match IndexedStack.slot state.stack idx with
    | some value => .ok value state
    | none => .error .undefined state

def push (value : Value) : LuaM Unit := fun state =>
  .ok () { state with stack := value :: state.stack }

/-- `lua_pushinteger`. -/
def lua_pushinteger (n : Int64) : LuaM Unit := push (.integer n)

/-- `lua_pushstring`. -/
def lua_pushstring (s : List UInt8) : LuaM Unit := push (.string s)

/-- `lua_pushvalue`. -/
def lua_pushvalue (idx : Int) : LuaM Unit := do
  let value ← index2addr idx
  push value

/-- `lua_createtable`; the sizes it is given are hints. -/
def lua_createtable : LuaM Unit := fun state =>
  .ok () { state with
    stack := .table state.tables.length :: state.stack
    tables := state.tables ++ [[]] }

/-- `lua_settable` on a table without a metatable. -/
def lua_settable (idx : Int) : LuaM Unit := fun state =>
  match IndexedStack.slot state.stack idx, state.stack with
  | some (.table ref), value :: key :: rest =>
      .ok () { state with
        stack := rest
        tables := state.tables.modify ref fun table => table.set key value }
  | _, _ => .error .undefined state

/-- `lua_gettable` on a table without a metatable. -/
def lua_gettable (idx : Int) : LuaM Unit := fun state =>
  match IndexedStack.slot state.stack idx, state.stack with
  | some (.table ref), key :: rest =>
      .ok () { state with stack := (state.tables.getD ref []).get key :: rest }
  | _, _ => .error .undefined state

/-- `lua_istable`. -/
def lua_istable (idx : Int) : LuaM Bool := fun state =>
  match IndexedStack.slot state.stack idx with
  | some (.table _) => .ok true state
  | _ => .ok false state

/-- How Lua reads a numeral, and what it calls a value in a message. -/
structure Conversions where
  /-- The integer that a string stands for, if it is a numeral and that is an integer. -/
  numeral : List UInt8 → Option (Option Int64)
  typename : Value → String

/-- `luaL_checkinteger`. -/
def luaL_checkinteger (conversions : Conversions) (arg : Int) : LuaM Int64 := do
  let value ← index2addr arg
  let expected := "number expected, got " ++ conversions.typename value
  match value with
  | .integer n => return n
  | .string bytes =>
      match conversions.numeral bytes with
      | some (some n) => return n
      | some none => throw (.argument arg "number has no integer representation")
      | none => throw (.argument arg expected)
  | _ => throw (.argument arg expected)

/-- `luaL_checkstring`, which turns an integer on the stack into a string. -/
def luaL_checkstring (conversions : Conversions) (arg : Int) : LuaM (List UInt8) := do
  let value ← index2addr arg
  match value with
  | .string bytes => return bytes
  | .integer n => do
      let bytes := (toString n).toUTF8.toList
      modify fun state =>
        match IndexedStack.position state.stack arg with
        | some position => { state with stack := state.stack.set position (.string bytes) }
        | none => state
      return bytes
  | _ => throw (.argument arg ("string expected, got " ++ conversions.typename value))

/-- `lua_remove`. -/
def lua_remove (idx : Int) : LuaM Unit := fun state =>
  match IndexedStack.remove state.stack idx with
  | some stack => .ok () { state with stack }
  | none => .error .undefined state

/-- `lua_error`. -/
def lua_error {α : Type} : LuaM α := fun state =>
  match state.stack with
  | error :: _ => .error (.lua error) state
  | [] => .error .undefined state

/-- The values that a function returns with `return n`, the first one first. -/
def returns (n : Nat) : LuaM (List Value) := fun state =>
  if n ≤ state.stack.length then .ok (state.stack.take n).reverse state
  else .error .undefined state

/-! ## One call after another -/

section Calls

variable {α β : Type}

/-- What follows a call that returned starts in the state that the call left. -/
theorem bind_of_ok {call : LuaM α} {next : α → LuaM β} {state after : LuaState} {result : α}
    (returned : call state = .ok result after) : (call >>= next) state = next result after := by
  change EStateM.bind call next state = next result after
  unfold EStateM.bind
  rw [returned]

/-- A call that fails ends what it is part of. -/
theorem bind_of_error {call : LuaM α} {next : α → LuaM β} {state after : LuaState}
    {failure : Failure} (failed : call state = .error failure after) :
    (call >>= next) state = .error failure after := by
  change EStateM.bind call next state = _
  unfold EStateM.bind
  rw [failed]

variable (stack : List Value) (upvalue : Value) (tables : List Table)

theorem lua_gettop_run :
    lua_gettop ⟨stack, upvalue, tables⟩ = .ok stack.length ⟨stack, upvalue, tables⟩ := rfl

theorem push_run (value : Value) :
    push value ⟨stack, upvalue, tables⟩ = .ok () ⟨value :: stack, upvalue, tables⟩ := rfl

theorem lua_pushinteger_run (n : Int64) :
    lua_pushinteger n ⟨stack, upvalue, tables⟩ =
      .ok () ⟨.integer n :: stack, upvalue, tables⟩ := rfl

theorem lua_pushstring_run (s : List UInt8) :
    lua_pushstring s ⟨stack, upvalue, tables⟩ = .ok () ⟨.string s :: stack, upvalue, tables⟩ := rfl

theorem lua_createtable_run :
    lua_createtable ⟨stack, upvalue, tables⟩ =
      .ok () ⟨.table tables.length :: stack, upvalue, tables ++ [[]]⟩ := rfl

variable {stack upvalue tables} {below : List Value} {first second key value : Value}
  {entries : Table}

theorem index2addr_of_slot {idx : Int} (ordinary : idx ≠ lua_upvalueindex 1)
    (found : IndexedStack.slot stack idx = some value) :
    index2addr idx ⟨stack, upvalue, tables⟩ = .ok value ⟨stack, upvalue, tables⟩ := by
  unfold index2addr
  rw [if_neg ordinary]
  simp only [found]

/-- An index that `lua_gettop` returned is none of an upvalue. -/
theorem height_ne_upvalueindex (height : Nat) : (height : Int) ≠ lua_upvalueindex 1 := by
  unfold lua_upvalueindex LUA_REGISTRYINDEX
  omega

/-- The third value from the top, by the height of the stack up to it. -/
theorem lua_pushvalue_absolute :
    lua_pushvalue (value :: below).length
        ⟨first :: second :: value :: below, upvalue, tables⟩ =
      .ok () ⟨value :: first :: second :: value :: below, upvalue, tables⟩ :=
  bind_of_ok (index2addr_of_slot (height_ne_upvalueindex _)
    (IndexedStack.slot_absolute [first, second] value below))

/-- The third value from the top. -/
theorem lua_pushvalue_relative :
    lua_pushvalue (-3) ⟨first :: second :: value :: below, upvalue, tables⟩ =
      .ok () ⟨value :: first :: second :: value :: below, upvalue, tables⟩ := by
  have ordinary : (-3 : Int) ≠ lua_upvalueindex 1 := by decide
  have found : IndexedStack.slot (first :: second :: value :: below) (-3) = some value :=
    IndexedStack.slot_relative [first, second] value below
  exact bind_of_ok (index2addr_of_slot ordinary found)

theorem index2addr_top :
    index2addr (-1) ⟨value :: stack, upvalue, tables⟩ =
      .ok value ⟨value :: stack, upvalue, tables⟩ := by
  have ordinary : (-1 : Int) ≠ lua_upvalueindex 1 := by decide
  exact index2addr_of_slot ordinary (IndexedStack.slot_relative [] value stack)

theorem luaL_checkinteger_top (conversions : Conversions) (n : Int64) :
    luaL_checkinteger conversions (-1) ⟨.integer n :: stack, upvalue, tables⟩ =
      .ok n ⟨.integer n :: stack, upvalue, tables⟩ :=
  bind_of_ok index2addr_top

theorem luaL_checkinteger_nil (conversions : Conversions) :
    luaL_checkinteger conversions (-1) ⟨.nil :: stack, upvalue, tables⟩ =
      .error (.argument (-1) ("number expected, got " ++ conversions.typename .nil))
        ⟨.nil :: stack, upvalue, tables⟩ :=
  bind_of_ok index2addr_top

theorem luaL_checkstring_top (conversions : Conversions) (bytes : List UInt8) :
    luaL_checkstring conversions (-1) ⟨.string bytes :: stack, upvalue, tables⟩ =
      .ok bytes ⟨.string bytes :: stack, upvalue, tables⟩ :=
  bind_of_ok index2addr_top

/-- A field of a table that is counted from the bottom. -/
theorem lua_gettable_absolute {idx : Int} {ref : Nat} (positive : 0 < idx)
    (found : IndexedStack.slot stack idx = some (.table ref))
    (entry : tables[ref]? = some entries) :
    lua_gettable idx ⟨key :: stack, upvalue, tables⟩ =
      .ok () ⟨entries.get key :: stack, upvalue, tables⟩ := by
  have below := IndexedStack.slot_cons_of_pos (.table ref) positive found key
  unfold lua_gettable
  simp only [below, List.getD_eq_getElem?_getD, entry, Option.getD_some]

theorem modify_last (tables : List Table) (function : Table → Table) :
    (tables ++ [entries]).modify tables.length function = tables ++ [function entries] := by
  induction tables with
  | nil => rfl
  | cons table rest ih => simp [ih]

/-- A new entry of the table that was made last. -/
theorem lua_settable_last {idx : Int}
    (found : IndexedStack.slot (value :: key :: stack) idx = some (.table tables.length)) :
    lua_settable idx ⟨value :: key :: stack, upvalue, tables ++ [entries]⟩ =
      .ok () ⟨stack, upvalue, tables ++ [entries.set key value]⟩ := by
  unfold lua_settable
  simp only [found, modify_last]

/-- The same with the height of the stack up to the table, which is below the entry. -/
theorem lua_settable_absolute :
    lua_settable (Value.table tables.length :: below).length
        ⟨value :: key :: .table tables.length :: below, upvalue, tables ++ [entries]⟩ =
      .ok () ⟨.table tables.length :: below, upvalue, tables ++ [entries.set key value]⟩ :=
  lua_settable_last (IndexedStack.slot_absolute [value, key] (.table tables.length) below)

theorem lua_settable_relative :
    lua_settable (-3) ⟨value :: key :: .table tables.length :: below, upvalue,
        tables ++ [entries]⟩ =
      .ok () ⟨.table tables.length :: below, upvalue, tables ++ [entries.set key value]⟩ :=
  lua_settable_last (IndexedStack.slot_relative [value, key] (.table tables.length) below)

/-- The value below the top. -/
theorem lua_remove_absolute :
    lua_remove (value :: below).length ⟨first :: value :: below, upvalue, tables⟩ =
      .ok () ⟨first :: below, upvalue, tables⟩ := by
  have removed : IndexedStack.remove (first :: value :: below) (value :: below).length =
      some (first :: below) := IndexedStack.remove_absolute [first] value below
  unfold lua_remove
  simp only [removed]

end Calls

end Socket

end EasyLua
