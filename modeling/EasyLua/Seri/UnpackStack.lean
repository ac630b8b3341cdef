import EasyLua.Foundation.Following
import EasyLua.Seri.Unpack

/-!
# Unpacking onto the Lua stack

`luaseri_unpack` and the functions it calls as the source has them: a value is pushed onto the
Lua stack, a table is made first and then filled through its index, and `luaL_checkstack` makes
room for what is pushed. A table is a reference to its fields, of which a key or a value may be
a reference too. Pushing where no room was made is undefined; here it is an error of its own.

This follows the decoder of values: it pushes what that returns, in new tables, and fails where
that fails, unless the Lua stack is full before.
-/

namespace EasyLua.Seri.UnpackOnStack

/-- A value on the stack of the decoder. -/
inductive Slot
  | nil
  | scalar (value : Scalar)
  | table (ref : Nat)
  /-- A value of the caller that the decoder does not look at. -/
  | foreign
  deriving DecidableEq

/-- A table by its raw sets, newest first. -/
structure Table where
  fields : List (Scalar × Slot)
  byTable : List (Slot × Slot)

/-- The stream, the stack with its top first, and the tables made so far. -/
structure LuaState where
  rb : ReadBlock
  /-- What stands in the Lua stack under the first argument. -/
  below : Nat
  stack : List Slot
  /-- Up to `ci->top` pushing is allowed. -/
  limit : Nat
  tables : List Table

/-- Why unpacking ends without a result. -/
inductive StackError
  /-- The decoder fails, or a key is refused. -/
  | unpack (error : UnpackError)
  /-- The error of `luaL_checkstack`. -/
  | stackOverflow
  /-- A push beyond the limit. -/
  | overrun
  /-- A slot that does not exist or is not what the call needs. -/
  | badSlot

abbrev UnpackM := EStateM StackError LuaState

def LUA_MINSTACK : Nat := 20

def LUAI_MAXSTACK : Nat := 1000000

def EXTRA_STACK : Nat := 5

/-! ## The Lua API -/

/-- The functions that only read the stream. -/
def onStream {α : Type} (program : Unpack α) : UnpackM α := fun state =>
  match program state.rb with
  | .ok value rb => .ok value { state with rb := rb }
  | .error error rb => .error (.unpack error) { state with rb := rb }

/-- `api_incr_top` of a new value. -/
def push (slot : Slot) : UnpackM Unit := fun state =>
  if state.stack.length < state.limit then .ok () { state with stack := slot :: state.stack }
  else .error .overrun state

/-- A scalar value or nil. -/
def pushData : Data → UnpackM Unit
  | .nil => push .nil
  | .scalar value => push (.scalar value)
  | .table _ _ => throw .badSlot

/-- `luaL_checkstack`. -/
def luaLCheckstack (n : Nat) : UnpackM Unit := fun state =>
  if LUAI_MAXSTACK < state.below + state.stack.length + EXTRA_STACK + n then
    .error .stackOverflow state
  else .ok () { state with limit := max state.limit (state.stack.length + n) }

/-- `lua_gettop`. -/
def luaGettop : UnpackM Nat := fun state => .ok state.stack.length state

/-- `lua_settop` to fewer values. -/
def luaSettop (n : Nat) : UnpackM Unit := fun state =>
  if n ≤ state.stack.length then
    .ok () { state with stack := state.stack.drop (state.stack.length - n) }
  else .error .badSlot state

/-- `index2addr` of an index from the top. -/
def index2addr (idx : Int) : UnpackM Slot := fun state =>
  match state.stack[(-idx - 1).toNat]? with
  | some slot => .ok slot state
  | none => .error .badSlot state

/-- `lua_pop`. -/
def luaPop (n : Nat) : UnpackM Unit := fun state =>
  if n ≤ state.stack.length then .ok () { state with stack := state.stack.drop n }
  else .error .badSlot state

/-- `lua_isnil`. -/
def luaIsnil (idx : Int) : UnpackM Bool := do
  let slot ← index2addr idx
  return slot = .nil

/-- `lua_createtable`. -/
def luaCreatetable : UnpackM Unit := do
  let state ← get
  push (.table state.tables.length)
  modify fun state => { state with tables := state.tables ++ [⟨[], []⟩] }

/-- A table is changed. -/
def setTable (idx : Int) (function : Table → Table) : UnpackM Unit := do
  match ← index2addr idx with
  | .table ref =>
      modify fun state => { state with tables := state.tables.modify ref function }
  | _ => throw .badSlot

/-- `lua_rawseti`. -/
def luaRawseti (idx i : Int) : UnpackM Unit := do
  let value ← index2addr (-1)
  setTable idx fun table =>
    { table with fields := (.integer (BitVec.ofInt 64 i), value) :: table.fields }
  luaPop 1

/-- `lua_rawset`, which raises an error for a key that no table can have. -/
def luaRawset (idx : Int) : UnpackM Unit := do
  let key ← index2addr (-2)
  let value ← index2addr (-1)
  match key with
  | .nil => throw (.unpack (.lua "table index is nil"))
  | .scalar key =>
      if key.isNaN then throw (.unpack (.lua "table index is NaN"))
      else do
        setTable idx fun table => { table with fields := (key.toKey, value) :: table.fields }
        luaPop 2
  | .table _ => do
      setTable idx fun table => { table with byTable := (key, value) :: table.byTable }
      luaPop 2
  | .foreign => throw .badSlot

/-! ## Unpacking -/

/-- `get_buffer`. -/
def getBuffer (len : Int) : UnpackM Unit := do
  let string ← onStream (Seri.getBuffer len)
  pushData string

/-- The first loop of `unpack_table`, with `count` rounds left from `i` on. -/
def arrayLoop (unpackOne : UnpackM Unit) : Nat → Int → UnpackM Unit
  | 0, _ => return ()
  | count + 1, i => do
      unpackOne
      luaRawseti (-2) i
      arrayLoop unpackOne count (i + 1)

/-- The second loop of `unpack_table`, which ends at a nil key. -/
def hashLoop (unpackOne : UnpackM Unit) : Nat → UnpackM Unit
  | 0 => throw (.unpack .outOfFuel)
  | fuel + 1 => do
      unpackOne
      if ← luaIsnil (-1) then luaPop 1
      else
        unpackOne
        luaRawset (-3)
        hashLoop unpackOne fuel

/-- `unpack_table`. -/
def unpackTable (fuel : Nat) (unpackOne : UnpackM Unit) (arraySize : Nat) : UnpackM Unit := do
  let arraySize ← onStream (getArraySize arraySize)
  luaLCheckstack LUA_MINSTACK
  luaCreatetable
  arrayLoop unpackOne arraySize.toNat 1
  hashLoop unpackOne fuel

/-- `push_value`. -/
def pushValue (fuel : Nat) (unpackOne : UnpackM Unit) (type cookie : Nat) : UnpackM Unit :=
  match type with
  | TYPE_NIL => push .nil
  | TYPE_BOOLEAN => push (.scalar (.boolean (cookie ≠ 0)))
  | TYPE_NUMBER =>
      if cookie = TYPE_NUMBER_REAL then do
        let bits ← onStream getReal
        push (.scalar (.number bits))
      else do
        let value ← onStream (getInteger cookie)
        push (.scalar (.integer value))
  | TYPE_USERDATA => do
      let pointer ← onStream getPointer
      push (.scalar (.lightUserdata pointer))
  | TYPE_SHORT_STRING => getBuffer cookie
  | TYPE_LONG_STRING =>
      if cookie = 2 then do
        let n ← onStream (readNumber 500 2)
        getBuffer n
      else if cookie = 4 then do
        let n ← onStream (readNumber 511 4)
        getBuffer (toInt n)
      else onStream (invalidStream 507)
  | TYPE_TABLE => unpackTable fuel unpackOne cookie
  | _ => onStream (invalidStream 524)

/-- `unpack_one`. -/
def unpackOne : Nat → UnpackM Unit
  | 0 => throw (.unpack .outOfFuel)
  | fuel + 1 => do
      let byte ← onStream (readNumber 535 1)
      let (type, cookie) := splitHeader byte
      pushValue fuel (unpackOne fuel) type cookie

/-- The loop of `luaseri_unpack` from `i` on. -/
def unpackFrom : Nat → Nat → UnpackM Unit
  | 0, _ => throw (.unpack .outOfFuel)
  | fuel + 1, i => do
      if i % 8 = 7 then luaLCheckstack LUA_MINSTACK
      match ← onStream (rbRead 1) with
      | none => return ()
      | some p =>
          let bytes ← onStream (load p 1)
          let (type, cookie) := splitHeader (LittleEndian.decode bytes)
          pushValue fuel (unpackOne fuel) type cookie
          unpackFrom fuel (i + 1)

/-- `luaseri_unpack` after it has found the buffer and converted the length. -/
def unpackBuffer (buffer : Option Bytes) (len : Int) : UnpackM Nat :=
  if len = 0 then return 0
  else
    match buffer with
    | .none => throw (.unpack (.lua "deserialize null pointer"))
    | .some buffer => do
        luaSettop 1
        modify fun state => { state with rb := rballInit buffer len }
        unpackFrom (buffer.length + 1) 0
        let top ← luaGettop
        return top - 1

/-- `luaseri_unpack` with its first two arguments: how many results are at the top. -/
def luaseriUnpack : UnpackArgument → UnpackM Nat
  | .none => return 0
  | .string bytes => unpackBuffer (some bytes) (toInt bytes.length)
  | .pointer buffer len => unpackBuffer buffer (toInt len.toInt)

/-! ## What a slot holds -/

/-- The slot holds the value, and all its tables were made after the first `least` ones. -/
inductive Holds (tables : List Table) (least : Nat) : Slot → Data → Prop
  | nil : Holds tables least .nil .nil
  | scalar (value : Scalar) : Holds tables least (.scalar value) (.scalar value)
  | table (ref : Nat) (table : Table) (fields : List (Scalar × Data))
      (byTable : List (Data × Data)) (new : least ≤ ref) (found : tables[ref]? = some table)
      (fieldCount : table.fields.length = fields.length)
      (fieldKeys : ∀ pair ∈ table.fields.zip fields, pair.1.1 = pair.2.1)
      (fieldValues : ∀ pair ∈ table.fields.zip fields, Holds tables least pair.1.2 pair.2.2)
      (byTableCount : table.byTable.length = byTable.length)
      (byTableKeys : ∀ pair ∈ table.byTable.zip byTable, Holds tables least pair.1.1 pair.2.1)
      (byTableValues : ∀ pair ∈ table.byTable.zip byTable,
        Holds tables least pair.1.2 pair.2.2) :
      Holds tables least (.table ref) (.table fields byTable)

/-- The table has been filled like the one of the decoder of values. -/
structure Filled (tables : List Table) (least : Nat) (table : Table) (built : NewTable) :
    Prop where
  fieldCount : table.fields.length = built.fields.length
  fieldKeys : ∀ pair ∈ table.fields.zip built.fields, pair.1.1 = pair.2.1
  fieldValues : ∀ pair ∈ table.fields.zip built.fields, Holds tables least pair.1.2 pair.2.2
  byTableCount : table.byTable.length = built.byTable.length
  byTableKeys : ∀ pair ∈ table.byTable.zip built.byTable,
    Holds tables least pair.1.1 pair.2.1
  byTableValues : ∀ pair ∈ table.byTable.zip built.byTable,
    Holds tables least pair.1.2 pair.2.2

variable {tables tables' : List Table} {least least' : Nat} {slot : Slot} {data : Data}

/-- Tables made before, and changes to them, do not matter. -/
theorem Holds.frame (holds : Holds tables least slot data) (fewer : least' ≤ least)
    (kept : ∀ ref table, least ≤ ref → tables[ref]? = some table → tables'[ref]? = some table) :
    Holds tables' least' slot data := by
  induction holds with
  | nil => exact .nil
  | scalar value => exact .scalar value
  | table ref table fields byTable new found fieldCount fieldKeys _ byTableCount _ _
      fieldValues byTableKeys byTableValues =>
      exact .table ref table fields byTable (fewer.trans new) (kept ref table new found)
        fieldCount fieldKeys fieldValues byTableCount byTableKeys byTableValues

theorem Filled.frame {table : Table} {built : NewTable} (filled : Filled tables least table built)
    (fewer : least' ≤ least)
    (kept : ∀ ref table, least ≤ ref → tables[ref]? = some table → tables'[ref]? = some table) :
    Filled tables' least' table built where
  fieldCount := filled.fieldCount
  fieldKeys := filled.fieldKeys
  fieldValues := fun pair member => (filled.fieldValues pair member).frame fewer kept
  byTableCount := filled.byTableCount
  byTableKeys := fun pair member => (filled.byTableKeys pair member).frame fewer kept
  byTableValues := fun pair member => (filled.byTableValues pair member).frame fewer kept

theorem Filled.empty : Filled tables least ⟨[], []⟩ .empty where
  fieldCount := rfl
  fieldKeys := nofun
  fieldValues := nofun
  byTableCount := rfl
  byTableKeys := nofun
  byTableValues := nofun

/-- A raw set of a scalar key. -/
theorem Filled.field {table : Table} {built : NewTable} (filled : Filled tables least table built)
    (key : Scalar) (holds : Holds tables least slot data) :
    Filled tables least { table with fields := (key, slot) :: table.fields }
      { built with fields := (key, data) :: built.fields } where
  fieldCount := congrArg (· + 1) filled.fieldCount
  fieldKeys := List.forall_mem_cons.mpr ⟨rfl, filled.fieldKeys⟩
  fieldValues := List.forall_mem_cons.mpr ⟨holds, filled.fieldValues⟩
  byTableCount := filled.byTableCount
  byTableKeys := filled.byTableKeys
  byTableValues := filled.byTableValues

/-- A raw set of a key that is a table. -/
theorem Filled.pair {table : Table} {built : NewTable} (filled : Filled tables least table built)
    {key : Slot} {keyData : Data} (holdsKey : Holds tables least key keyData)
    (holds : Holds tables least slot data) :
    Filled tables least { table with byTable := (key, slot) :: table.byTable }
      { built with byTable := (keyData, data) :: built.byTable } where
  fieldCount := filled.fieldCount
  fieldKeys := filled.fieldKeys
  fieldValues := filled.fieldValues
  byTableCount := congrArg (· + 1) filled.byTableCount
  byTableKeys := List.forall_mem_cons.mpr ⟨holdsKey, filled.byTableKeys⟩
  byTableValues := List.forall_mem_cons.mpr ⟨holds, filled.byTableValues⟩

theorem Filled.toData {table : Table} {built : NewTable} {ref : Nat}
    (filled : Filled tables least table built) (new : least ≤ ref)
    (found : tables[ref]? = some table) :
    Holds tables least (.table ref) built.toData :=
  .table ref table _ _ new found filled.fieldCount filled.fieldKeys filled.fieldValues
    filled.byTableCount filled.byTableKeys filled.byTableValues

/-! ## Following the decoder of values -/

open Following

/-- The Lua stack is full, which happens only where values are nested deeper than this. -/
def Stops (depth : Nat) (failure : StackError) (_ : LuaState) : Prop :=
  failure = .stackOverflow ∧ LUAI_MAXSTACK < depth

/-- The decoder of values fails in the same way. -/
def Fails (failure : StackError) (state : LuaState) (error : UnpackError) (rb : ReadBlock) :
    Prop :=
  failure = .unpack error ∧ state.rb = rb

/-- Where the stack would end with so many values nested in the next one. -/
def LuaState.reach (state : LuaState) (fuel : Nat) : Nat :=
  state.below + state.stack.length + 2 * fuel + (EXTRA_STACK + LUA_MINSTACK)

/-- Nothing that was there before is touched. -/
structure Extends (before after : LuaState) : Prop where
  below : after.below = before.below
  limit : before.limit ≤ after.limit
  grown : before.tables.length ≤ after.tables.length
  kept : ∀ ref < before.tables.length, after.tables[ref]? = before.tables[ref]?

/-- A value has been pushed. -/
structure Pushed (before after : LuaState) (data : Data) (rb : ReadBlock) : Prop
    extends Extends before after where
  rb : after.rb = rb
  pushed : ∃ slot, after.stack = slot :: before.stack ∧
    Holds after.tables before.tables.length slot data

/-- The program pushes what the decoder returns, with room for one value. -/
def Pushes (fuel : Nat) (program : UnpackM Unit) (stream : Unpack Data) : Prop :=
  ∀ before : LuaState, before.stack.length < before.limit →
    Matches (Stops (before.reach fuel)) Fails
      (fun _ after data rb => Pushed before after data rb) (program before) (stream before.rb)

theorem Extends.refl (state : LuaState) : Extends state state where
  below := rfl
  limit := Nat.le_refl _
  grown := Nat.le_refl _
  kept := fun _ _ => rfl

theorem Extends.trans {first second third : LuaState} (extends_ : Extends first second)
    (later : Extends second third) : Extends first third where
  below := later.below.trans extends_.below
  limit := extends_.limit.trans later.limit
  grown := extends_.grown.trans later.grown
  kept := fun ref old =>
    (later.kept ref (old.trans_le extends_.grown)).trans (extends_.kept ref old)

/-- A table that exists still exists. -/
theorem Extends.found {before after : LuaState} (extends_ : Extends before after) {ref : Nat}
    {table : Table} (found : before.tables[ref]? = some table) :
    after.tables[ref]? = some table := by
  obtain ⟨old, _⟩ := List.getElem?_eq_some_iff.mp found
  rw [extends_.kept ref old, found]

/-- Reading the stream changes nothing else. -/
theorem matches_onStream {α : Type} {depth : Nat} (program : Unpack α) (state : LuaState) :
    Matches (Stops depth) Fails
      (fun value after value' rb => value = value' ∧ after = { state with rb := rb })
      (onStream program state) (program state.rb) := by
  unfold onStream
  cases program state.rb with
  | ok value rb => exact ⟨rfl, rfl⟩
  | error error rb => exact Matches.fail ⟨rfl, rfl⟩

/-- A scalar value is pushed after reading. -/
theorem pushed_scalar {before state : LuaState} (room : before.stack.length < before.limit)
    (rb : ReadBlock) (same : state = { before with rb := rb }) {slot : Slot} {data : Data}
    (holds : Holds before.tables before.tables.length slot data) :
    ∃ after, push slot state = .ok () after ∧ Pushed before after data rb := by
  subst same
  exact ⟨_, if_pos room, ⟨rfl, Nat.le_refl _, Nat.le_refl _, fun _ _ => rfl⟩, rfl, slot, rfl,
    holds⟩

theorem Pushes.pure {fuel : Nat} {slot : Slot} {data : Data}
    (holds : ∀ tables least, Holds tables least slot data) :
    Pushes fuel (push slot) (pure data) := by
  intro before room
  obtain ⟨after, ran, pushed⟩ := pushed_scalar room before.rb rfl (holds _ _)
  rw [ran]
  exact pushed

/-- Reading is followed by one push. -/
theorem Pushes.read {α : Type} {fuel : Nat} {program : Unpack α} {slot : α → Slot}
    {data : α → Data} (holds : ∀ value tables least, Holds tables least (slot value) (data value)) :
    Pushes fuel (onStream program >>= fun value => push (slot value))
      (program >>= fun value => Pure.pure (data value)) := by
  intro before room
  refine (matches_onStream program before).bind fun value state value' rb same => ?_
  obtain ⟨rfl, same⟩ := same
  obtain ⟨after, ran, pushed⟩ := pushed_scalar room rb same (holds value _ _)
  rw [ran]
  exact pushed

theorem Pushes.ite {fuel : Nat} {condition : Prop} [Decidable condition]
    {program other : UnpackM Unit} {stream stream' : Unpack Data}
    (yes : Pushes fuel program stream) (no : Pushes fuel other stream') :
    Pushes fuel (if condition then program else other)
      (if condition then stream else stream') := by
  split
  · exact yes
  · exact no

theorem Pushes.fail {fuel : Nat} (line : Nat) :
    Pushes fuel (onStream (invalidStream line)) (invalidStream line) :=
  fun _ _ => Matches.fail ⟨rfl, rfl⟩

theorem Pushed.top {before after : LuaState} {data : Data} {rb : ReadBlock}
    (pushed : Pushed before after data rb) {least : Nat} (fewer : least ≤ before.tables.length) :
    ∃ slot, after.stack = slot :: before.stack ∧ Holds after.tables least slot data := by
  obtain ⟨slot, stack, holds⟩ := pushed.pushed
  exact ⟨slot, stack, holds.frame fewer fun _ _ _ found => found⟩

/-! ## Tables -/

/-- The new table is at the top, filled as far as the one of the decoder of values. -/
structure Building (before state : LuaState) (built : NewTable) (rb : ReadBlock) : Prop
    extends Extends before state where
  rb : state.rb = rb
  stack : state.stack = .table before.tables.length :: before.stack
  room : before.stack.length + LUA_MINSTACK ≤ state.limit
  filled : ∃ table, state.tables[before.tables.length]? = some table ∧
    Filled state.tables (before.tables.length + 1) table built

theorem luaRawseti_run {state : LuaState} {slot : Slot} {ref : Nat} {rest : List Slot} {i : Int}
    (stack : state.stack = slot :: .table ref :: rest) :
    luaRawseti (-2) i state = .ok () { state with
      stack := .table ref :: rest
      tables := state.tables.modify ref fun table =>
        { table with fields := (.integer (BitVec.ofInt 64 i), slot) :: table.fields } } := by
  cases state
  subst stack
  rfl

section Building

variable {before state after : LuaState} {built : NewTable} {rb : ReadBlock}

theorem Building.grown' (building : Building before state built rb) :
    before.tables.length + 1 ≤ state.tables.length := by
  obtain ⟨table, found, _⟩ := building.filled
  obtain ⟨inside, _⟩ := List.getElem?_eq_some_iff.mp found
  exact inside

/-- The table is changed after values have been unpacked. -/
theorem Building.change (building : Building before state built rb)
    (extends_ : Extends state after) {afterRb : ReadBlock} (stream : after.rb = afterRb)
    {built' : NewTable} (function : Table → Table)
    (fills : ∀ table, Filled after.tables (before.tables.length + 1) table built →
      Filled after.tables (before.tables.length + 1) (function table) built') :
    Building before { after with
      stack := .table before.tables.length :: before.stack
      tables := after.tables.modify before.tables.length function } built' afterRb := by
  have whole := building.toExtends.trans extends_
  obtain ⟨table, found, filled⟩ := building.filled
  have present := extends_.found found
  have elsewhere {ref : Nat} (different : before.tables.length ≠ ref) :
      (after.tables.modify before.tables.length function)[ref]? = after.tables[ref]? :=
    List.getElem?_modify_ne _ _ different
  refine ⟨⟨whole.below, whole.limit, ?_, fun ref old => ?_⟩, stream, rfl,
    building.room.trans extends_.limit, function table, ?_, ?_⟩
  · rw [List.length_modify]
    exact whole.grown
  · rw [elsewhere (Nat.ne_of_gt old)]
    exact whole.kept ref old
  · rw [List.getElem?_modify_eq, present]
    rfl
  · have now := fills table (filled.frame (Nat.le_refl _) fun ref other _ old =>
      extends_.found old)
    refine now.frame (Nat.le_refl _) fun ref other later old => ?_
    rw [elsewhere (Nat.ne_of_lt later)]
    exact old

/-- Another value is unpacked with at most a key above the table. -/
theorem Building.one (building : Building before state built rb) (extends_ : Extends state after)
    (short : after.stack.length ≤ before.stack.length + 2) {fuel : Nat} {one : UnpackM Unit}
    {stream : Unpack Data} (pushes : Pushes fuel one stream) :
    Matches (Stops (before.reach (fuel + 1))) Fails
      (fun _ last data rb => Pushed after last data rb) (one after) (stream after.rb) := by
  have room := building.room.trans extends_.limit
  unfold LUA_MINSTACK at room
  refine (pushes after (by omega)).weaken (fun failure _ stopped => ⟨stopped.1, ?_⟩)
    fun _ _ _ _ pushed => pushed
  have deep := stopped.2
  have below := extends_.below.trans building.below
  unfold LuaState.reach at deep ⊢
  omega

theorem Building.first (building : Building before state built rb) {fuel : Nat}
    {one : UnpackM Unit} {stream : Unpack Data} (pushes : Pushes fuel one stream) :
    Matches (Stops (before.reach (fuel + 1))) Fails
      (fun _ after data rb => Pushed state after data rb) (one state) (stream rb) := by
  have short : state.stack.length ≤ before.stack.length + 2 := by
    rw [building.stack, List.length_cons]
    omega
  exact building.rb ▸ building.one (.refl state) short pushes

theorem Building.arrayLoop {fuel : Nat} {one : UnpackM Unit} {stream : Unpack Data}
    (pushes : Pushes fuel one stream) (count : Nat) (i : Int)
    (building : Building before state built rb) :
    Matches (Stops (before.reach (fuel + 1))) Fails
      (fun _ after built rb => Building before after built rb)
      (arrayLoop one count i state) (unpackArray stream count i built rb) := by
  induction count generalizing i state built rb with
  | zero => exact building
  | succ count ih =>
      refine (building.first pushes).bind fun _ after data rb pushed => ?_
      obtain ⟨slot, stack, holds⟩ := pushed.top building.grown'
      rw [building.stack] at stack
      rw [bind_program_of_ok (luaRawseti_run stack)]
      have set := building.change pushed.toExtends pushed.rb
        (fun table => { table with fields := (.integer (BitVec.ofInt 64 i), slot) :: table.fields })
        fun table filled => filled.field (.integer (BitVec.ofInt 64 i)) holds
      exact ih (i + 1) set

/-- A raw set of the key and the value that have been unpacked. -/
theorem Building.rawset (building : Building before state built rb) {key value : Data}
    {mid : LuaState} {midRb afterRb : ReadBlock} (first : Pushed state mid key midRb)
    (second : Pushed mid after value afterRb) {fuel : Nat} {next : UnpackM Unit}
    {next' : NewTable → Unpack Data}
    (goesOn : ∀ last built, Building before last built afterRb →
      Matches (Stops (before.reach fuel)) Fails
        (fun _ last data rb => Pushed before last data rb) (next last) (next' built afterRb))
    (present : key ≠ .nil) :
    Matches (Stops (before.reach fuel)) Fails
      (fun _ last data rb => Pushed before last data rb)
      ((luaRawset (-3) >>= fun _ => next) after)
      ((match built.rawset key value with
        | .ok table => next' table
        | .error message => throw (.lua message) : Unpack Data) afterRb) := by
  obtain ⟨slot, stack, holds⟩ := second.top (building.grown'.trans first.grown)
  obtain ⟨keySlot, keyStack, keyHolds⟩ := first.top building.grown'
  rw [keyStack, building.stack] at stack
  have keyHolds := keyHolds.frame (Nat.le_refl _) fun _ _ _ found =>
    second.toExtends.found found
  have whole := first.toExtends.trans second.toExtends
  cases keyHolds with
  | nil => exact absurd rfl present
  | scalar key =>
      by_cases nan : key.isNaN
      · have refused : built.rawset (.scalar key) value = .error "table index is NaN" :=
          if_pos nan
        have raised : luaRawset (-3) after =
            .error (.unpack (.lua "table index is NaN")) after := by
          cases after
          subst stack
          exact congrFun (if_pos nan) _
        rw [refused]
        change Matches _ _ _ (EStateM.bind (luaRawset (-3)) (fun _ => next) after) _
        unfold EStateM.bind
        rw [raised]
        exact Matches.fail ⟨rfl, second.rb⟩
      · have accepted : built.rawset (.scalar key) value =
            .ok { built with fields := (key.toKey, value) :: built.fields } := if_neg nan
        have ran : luaRawset (-3) after = .ok () { after with
            stack := .table before.tables.length :: before.stack
            tables := after.tables.modify before.tables.length fun table =>
              { table with fields := (key.toKey, slot) :: table.fields } } := by
          cases after
          subst stack
          exact congrFun (if_neg nan) _
        have set := building.change whole second.rb
          (fun table => { table with fields := (key.toKey, slot) :: table.fields })
          fun table filled => filled.field key.toKey holds
        rw [accepted, bind_program_of_ok ran]
        exact goesOn _ _ set
  | table ref table fields byTable new found fieldCount fieldKeys fieldValues byTableCount
      byTableKeys byTableValues =>
      have keyHolds : Holds after.tables (before.tables.length + 1) (.table ref)
          (.table fields byTable) := .table ref table fields byTable new found fieldCount
        fieldKeys fieldValues byTableCount byTableKeys byTableValues
      have ran : luaRawset (-3) after = .ok () { after with
          stack := .table before.tables.length :: before.stack
          tables := after.tables.modify before.tables.length fun table =>
            { table with byTable := (.table ref, slot) :: table.byTable } } := by
        cases after
        subst stack
        rfl
      have set := building.change whole second.rb
        (fun table => { table with byTable := (.table ref, slot) :: table.byTable })
        fun table filled => filled.pair keyHolds holds
      rw [bind_program_of_ok ran]
      exact goesOn _ _ set

/-- The table that is complete has been pushed. -/
theorem Building.pushed (building : Building before state built rb) :
    Pushed before state built.toData rb := by
  obtain ⟨table, found, filled⟩ := building.filled
  have filled := filled.frame (Nat.le_succ _) fun _ _ _ old => old
  exact ⟨building.toExtends, building.rb, _, building.stack,
    filled.toData (Nat.le_refl _) found⟩

theorem luaIsnil_run {slot : Slot} {rest : List Slot} (stack : state.stack = slot :: rest) :
    luaIsnil (-1) state = .ok (decide (slot = .nil)) state := by
  cases state
  subst stack
  rfl

theorem luaPop_run {slot : Slot} {rest : List Slot} (stack : state.stack = slot :: rest) :
    luaPop 1 state = .ok () { state with stack := rest } := by
  cases state
  subst stack
  rfl

theorem Building.hashLoop {levels : Nat} {one : UnpackM Unit} {stream : Unpack Data}
    (pushes : Pushes levels one stream) (fuel : Nat) (building : Building before state built rb) :
    Matches (Stops (before.reach (levels + 1))) Fails
      (fun _ after data rb => Pushed before after data rb)
      (hashLoop one fuel state) (unpackHash stream fuel built rb) := by
  induction fuel generalizing state built rb with
  | zero => exact Matches.fail ⟨rfl, building.rb⟩
  | succ fuel ih =>
      refine (building.first pushes).bind fun _ mid key midRb first => ?_
      obtain ⟨keySlot, keyStack, keyHolds⟩ := first.top (Nat.le_refl _)
      rw [bind_program_of_ok (luaIsnil_run keyStack)]
      -- a key that is not nil is followed by its value, which is pushed one slot higher
      have entry (present : key ≠ .nil) : Matches (Stops (before.reach (levels + 1))) Fails
          (fun _ last data rb => Pushed before last data rb)
          ((do one; luaRawset (-3); UnpackOnStack.hashLoop one fuel : UnpackM Unit) mid)
          ((do
            let value ← stream
            match built.rawset key value with
            | .ok table => unpackHash stream fuel table
            | .error message => throw (.lua message) : Unpack Data) midRb) := by
        have short : mid.stack.length ≤ before.stack.length + 2 := by
          rw [keyStack, building.stack, List.length_cons, List.length_cons]
        have value := building.one first.toExtends short pushes
        rw [first.rb] at value
        refine value.bind fun _ after data afterRb second => ?_
        exact building.rawset first second (fun last built building => ih building) present
      cases keyHolds with
      | nil =>
          rw [building.stack] at keyStack
          change Matches _ _ _ (luaPop 1 mid) _
          rw [luaPop_run keyStack]
          have popped := building.change first.toExtends first.rb id fun _ filled => filled
          rw [List.modify_id] at popped
          exact popped.pushed
      | scalar scalar => exact entry nofun
      | table ref table fields byTable _ _ _ _ _ _ _ _ => exact entry nofun

end Building

/-- Values have been pushed one after the other. -/
structure PushedAll (before after : LuaState) (data : List Data) (rb : ReadBlock) : Prop
    extends Extends before after where
  rb : after.rb = rb
  pushed : ∃ slots, after.stack = slots.reverse ++ before.stack ∧
    List.Forall₂ (Holds after.tables before.tables.length) slots data

theorem PushedAll.cons {before mid after : LuaState} {value : Data} {data : List Data}
    {midRb rb : ReadBlock} (first : Pushed before mid value midRb)
    (rest : PushedAll mid after data rb) : PushedAll before after (value :: data) rb := by
  obtain ⟨slot, stack, holds⟩ := first.pushed
  obtain ⟨slots, above, all⟩ := rest.pushed
  have holds' : Holds after.tables before.tables.length slot value :=
    holds.frame (Nat.le_refl _) fun _ _ _ found => rest.toExtends.found found
  have all' : List.Forall₂ (Holds after.tables before.tables.length) slots data :=
    all.imp fun _ _ holds => holds.frame first.grown fun _ _ _ found => found
  refine ⟨first.toExtends.trans rest.toExtends, rest.rb, slot :: slots, ?_, .cons holds' all'⟩
  rw [above, stack, List.reverse_cons, List.append_assoc, List.singleton_append]

/-- How many bytes an argument gives. -/
def size : UnpackArgument → Nat
  | .none => 0
  | .string bytes => bytes.length
  | .pointer buffer _ => (buffer.getD []).length

/-- A call with its arguments on the stack, in the frame that Lua makes for it. -/
def called (below : Nat) (arguments : List Slot) (tables : List Table) : LuaState where
  rb := rballInit [] 0
  below := below
  stack := arguments
  limit := arguments.length + LUA_MINSTACK
  tables := tables

end EasyLua.Seri.UnpackOnStack
