import EasyLua.Foundation.Parser
import EasyLua.Service.CommandLine
import EasyLua.Socket.LuaStack

/-!
# The arguments of the script of a service

`pmain` puts all words of `argv` into the table `arg`, and after the options have run it calls
the script with the words behind its name. These are read back from `arg`, through the stack.
What the files and the options do, and which border of a table `#` finds, is given.
-/

namespace EasyLua

namespace Script

open CommandLine (Word argv argc args argvAt byte)
open Socket (Value Table)

/-- The part of the stack that a function sees, its top first, with what stands below it and how
far it may be filled, and the globals and tables. -/
structure LuaState where
  below : Nat
  stack : List Value
  limit : Nat
  globals : String → Value
  tables : List Table

/-- Why a function does not return. -/
inductive ScriptError
  /-- A read of `argv` that C does not allow. -/
  | read (failure : CommandLine.Failure)
  /-- `luaL_error` with this message. -/
  | error (message : String)
  /-- A push beyond the limit. -/
  | overrun
  /-- A use of the API that Lua does not define. -/
  | undefined

abbrev ScriptM := EStateM ScriptError LuaState

def LUAI_MAXSTACK : Nat := 1000000

def EXTRA_STACK : Nat := 5

/-- The files, the length of a table, and the message handler. -/
structure Environment where
  /-- `luaL_loadfile`, of the standard input when it is given no name. -/
  loadfile : Option Word → Except Value Value
  luaH_getn : Table → Nat
  msghandler : Value

/-! ## The Lua API -/

def push (value : Value) : ScriptM Unit := fun state =>
  if state.stack.length < state.limit then .ok () { state with stack := value :: state.stack }
  else .error .overrun state

/-- `lua_gettop`. -/
def lua_gettop : ScriptM Int := fun state => .ok state.stack.length state

/-- The value at an index. -/
def index2addr (idx : Int) : ScriptM Value := fun state =>
  match IndexedStack.slot state.stack idx with
  | some value => .ok value state
  | none => .error .undefined state

/-- `lua_pushstring`, which pushes nil for a null pointer. -/
def lua_pushstring : Option Word → ScriptM Unit
  | some s => push (.string s)
  | none => push .nil

/-- `lua_createtable`; the sizes it is given are hints. -/
def lua_createtable : ScriptM Unit := fun state =>
  push (.table state.tables.length) { state with tables := state.tables ++ [[]] }

/-- `lua_rawseti`. -/
def lua_rawseti (idx i : Int) : ScriptM Unit := fun state =>
  match IndexedStack.slot state.stack idx, state.stack with
  | some (.table ref), value :: rest =>
      .ok () { state with
        stack := rest
        tables := state.tables.modify ref fun table => table.set (.integer (.ofInt i)) value }
  | _, _ => .error .undefined state

/-- `lua_rawgeti`. -/
def lua_rawgeti (idx i : Int) : ScriptM Unit := fun state =>
  match IndexedStack.slot state.stack idx with
  | some (.table ref) => push ((state.tables.getD ref []).get (.integer (.ofInt i))) state
  | _ => .error .undefined state

/-- `lua_setglobal`. -/
def lua_setglobal (name : String) : ScriptM Unit := fun state =>
  match state.stack with
  | value :: rest =>
      .ok () { state with stack := rest, globals := Function.update state.globals name value }
  | [] => .error .undefined state

/-- `lua_getglobal`, which answers with the type of the value. -/
def lua_getglobal (name : String) : ScriptM Value := fun state =>
  match push (state.globals name) state with
  | .ok _ after => .ok (state.globals name) after
  | .error error after => .error error after

/-- `lua_remove`. -/
def lua_remove (idx : Int) : ScriptM Unit := fun state =>
  match IndexedStack.remove state.stack idx with
  | some stack => .ok () { state with stack }
  | none => .error .undefined state

/-- `lua_insert`. -/
def lua_insert (idx : Int) : ScriptM Unit := fun state =>
  match IndexedStack.position state.stack idx, state.stack with
  | some position, top :: rest =>
      .ok () { state with stack := rest.take position ++ top :: rest.drop position }
  | _, _ => .error .undefined state

/-- The length of the table at an index goes over the stack. -/
def returnLength (length : Nat) : ScriptM Nat := do
  push (.integer (.ofInt length))
  lua_remove (-1)
  return length

/-- `luaL_len` of a table without a metatable. -/
def luaL_len (env : Environment) (idx : Int) : ScriptM Nat := fun state =>
  match IndexedStack.slot state.stack idx with
  | some (.table ref) => returnLength (env.luaH_getn (state.tables.getD ref [])) state
  | _ => .error .undefined state

/-- `luaL_checkstack`. -/
def luaL_checkstack (space : Nat) (msg : String) : ScriptM Unit := fun state =>
  if LUAI_MAXSTACK < state.below + state.stack.length + EXTRA_STACK + space then
    .error (.error s!"stack overflow ({msg})") state
  else .ok () { state with limit := max state.limit (state.stack.length + space) }

/-- What `lua_pcall` calls, and the function that handles the errors. -/
structure Call where
  handler : Value
  function : Value
  args : List Value
  deriving DecidableEq

/-- The values at the top, the first one pushed first. -/
def topValues (n : Nat) : ScriptM (List Value) := fun state =>
  .ok (state.stack.take n).reverse state

/-- `lua_pcall` up to the call. -/
def lua_pcall (narg : Nat) (errfunc : Int) : ScriptM Call := do
  let handler ← index2addr errfunc
  let function ← index2addr (-(narg + 1))
  let args ← topValues narg
  return ⟨handler, function, args⟩

/-! ## `lua.c` -/

/-- `argv[i]`. -/
def readArgv (argv : List (Option Word)) (i : Nat) : ScriptM (Option Word) := fun state =>
  match argvAt argv i with
  | .ok cell => .ok cell state
  | .error failure => .error (.read failure) state

/-- The loop of `createargtable`, with some rounds left from `i` on. -/
def argLoop (argv : List (Option Word)) (script : Int) : Nat → Nat → ScriptM Unit
  | 0, _ => return ()
  | rounds + 1, i => do
      let word ← readArgv argv i
      lua_pushstring word
      lua_rawseti (-2) (i - script)
      argLoop argv script rounds (i + 1)

/-- `createargtable`. -/
def createargtable (argv : List (Option Word)) (argc script : Nat) : ScriptM Unit := do
  let script := if script = argc then 0 else script
  lua_createtable
  argLoop argv script argc 0
  lua_setglobal "arg"

/-- The loop of `pushargs`, with some rounds left from `i` on. -/
def pushLoop : Nat → Nat → ScriptM Unit
  | 0, _ => return ()
  | rounds + 1, i => do
      lua_rawgeti (-i) i
      pushLoop rounds (i + 1)

/-- `pushargs`. -/
def pushargs (env : Environment) : ScriptM Nat := do
  match ← lua_getglobal "arg" with
  | .table _ => do
      let n ← luaL_len env (-1)
      luaL_checkstack (n + 3) "too many arguments to script"
      pushLoop n 1
      lua_remove (-(n + 1))
      return n
  | _ => throw (.error "'arg' is not a table")

/-- `docall` up to the call. -/
def docall (env : Environment) (narg : Nat) : ScriptM Call := do
  let top ← lua_gettop
  let base := top - narg
  push env.msghandler
  lua_insert base
  lua_pcall narg base

/-- The file that `handle_script` loads: the standard input for `-`, unless `--` stands before
it. -/
def fileName (argv : List (Option Word)) (script : Nat) (fname : Word) :
    ScriptM (Option Word) :=
  if fname = [byte '-'] then do
    let previous ← readArgv argv (script - 1)
    if previous ≠ some [byte '-', byte '-'] then return none
    else return some fname
  else return some fname

/-- `handle_script` up to the call, where `script` is the place of its `argv[0]`; none when the
file cannot be loaded. -/
def handle_script (env : Environment) (argv : List (Option Word)) (script : Nat) :
    ScriptM (Option Call) := do
  match ← readArgv argv script with
  | none => throw (.read .nullPointer)
  | some fname => do
      let fname ← fileName argv script fname
      match env.loadfile fname with
      | .error message => do
          push message
          return none
      | .ok chunk => do
          push chunk
          let n ← pushargs env
          let call ← docall env n
          return some call

/-! ## The table of the arguments -/

/-- What stands at a key of `arg`: the words, with the script at 0. -/
def entry (words : List Word) (script : Nat) (key : Value) : Value :=
  match key with
  | .integer k =>
      if 0 ≤ k.toInt + script then
        (words[(k.toInt + script).toNat]?).elim .nil .string
      else .nil
  | _ => .nil

/-- The global `arg` is a table of the words. -/
def HasArg (state : LuaState) (words : List Word) (script : Nat) : Prop :=
  ∃ ref table, state.globals "arg" = .table ref ∧ state.tables[ref]? = some table ∧
    ∀ key, table.get key = entry words script key

/-- A border of a table, which `luaH_getn` returns as an `int`. -/
def IsBorder (table : Table) (n : Nat) : Prop :=
  n < 2 ^ 31 ∧ (n = 0 ∨ table.get (.integer (.ofInt n)) ≠ .nil) ∧
    table.get (.integer (.ofInt (n + 1 : Nat))) = .nil

section Entries

variable {words done : List Word} {script i : Nat} {word : Word} {table : Table}

theorem entry_index (small : i < 2 ^ 62) :
    entry words script (.integer (.ofInt i)) = (words[i + script]?).elim .nil .string := by
  have value : (Int64.ofInt i).toInt = i := Int64.toInt_ofInt_of_le (by omega) (by omega)
  have index : ((i : Int) + script).toNat = i + script := by omega
  unfold entry
  dsimp only
  rw [value, index]
  exact if_pos (by omega)

/-- One word more. -/
theorem entry_concat (place : done.length < 2 ^ 31) (named : script < 2 ^ 31) (key : Value) :
    entry (done ++ [word]) script key =
      if key = .integer (.ofInt ((done.length : Int) - script)) then .string word
      else entry done script key := by
  cases key with
  | integer k =>
      have value : (Int64.ofInt ((done.length : Int) - script)).toInt = done.length - script :=
        Int64.toInt_ofInt_of_le (by omega) (by omega)
      have same_iff : Value.integer k = .integer (.ofInt ((done.length : Int) - script)) ↔
          k.toInt + script = done.length := by
        rw [Value.integer.injEq, ← Int64.toInt_inj, value]
        omega
      unfold entry
      by_cases same : k.toInt + script = done.length
      · rw [if_pos (same_iff.mpr same)]
        simp [same]
      · rw [if_neg (fun equal => same (same_iff.mp equal))]
        dsimp only
        by_cases inside : 0 ≤ k.toInt + script
        · have apart : (k.toInt + script).toNat ≠ done.length := by omega
          rw [if_pos inside, if_pos inside, List.getElem?_append]
          by_cases before : (k.toInt + script).toNat < done.length
          · rw [if_pos before]
          · have behind : done.length < (k.toInt + script).toNat := by omega
            rw [if_neg before, List.getElem?_eq_none (by simp; omega),
              List.getElem?_eq_none (by omega)]
        · rw [if_neg inside, if_neg inside]
  | _ => simp [entry]

/-- The only border of `arg` is the number of words behind the script. -/
theorem IsBorder.eq {n : Nat} (border : IsBorder table n)
    (filled : ∀ key, table.get key = entry words script key) (isScript : script < words.length) :
    n = words.length - (script + 1) := by
  obtain ⟨bound, last, next⟩ := border
  have inside : script + n < words.length := by
    rcases last with rfl | present
    · exact isScript
    · rw [filled, entry_index (by omega)] at present
      by_contra outside
      rw [List.getElem?_eq_none (by omega)] at present
      exact present rfl
  rw [filled, entry_index (by omega)] at next
  have outside : words.length ≤ n + 1 + script := by
    by_contra within
    rw [List.getElem?_eq_getElem (by omega)] at next
    cases next
  omega

/-- That number is a border. -/
theorem isBorder_of_filled (filled : ∀ key, table.get key = entry words script key)
    (small : words.length < 2 ^ 31) (isScript : script < words.length) :
    IsBorder table (words.length - (script + 1)) := by
  refine ⟨by omega, ?_, ?_⟩
  · by_cases none_ : words.length - (script + 1) = 0
    · exact Or.inl none_
    · right
      rw [filled, entry_index (by omega), List.getElem?_eq_getElem (by omega)]
      exact Value.noConfusion
  · rw [filled, entry_index (by omega), List.getElem?_eq_none (by omega)]
    rfl

/-- Behind the script stand its arguments. -/
theorem entry_argument {j : Nat} {value : Value} (small : words.length < 2 ^ 31)
    (at_ : ((words.drop (script + 1)).map Value.string)[j]? = some value) :
    entry words script (.integer (.ofInt ((1 + j : Nat) : Int))) = value := by
  rw [List.getElem?_map, Option.map_eq_some_iff] at at_
  obtain ⟨word, behind, rfl⟩ := at_
  rw [List.getElem?_drop] at behind
  have inside := (List.getElem?_eq_some_iff.mp behind).1
  have index : 1 + j + script = script + 1 + j := by omega
  rw [entry_index (by omega), index, behind]
  rfl

end Entries

section Runs

variable {words : List Word} {script : Nat} {below limit : Nat} {stack : List Value}
  {globals : String → Value} {tables : List Table} {value : Value}

theorem push_run (room : stack.length < limit) (value : Value) :
    push value ⟨below, stack, limit, globals, tables⟩ =
      .ok () ⟨below, value :: stack, limit, globals, tables⟩ :=
  if_pos room

theorem lua_gettop_run (state : LuaState) :
    lua_gettop state = .ok state.stack.length state := rfl

theorem readArgv_run {argv : List (Option Word)} {i : Nat} {cell : Option Word}
    (found : argv[i]? = some cell) (state : LuaState) :
    readArgv argv i state = .ok cell state := by
  unfold readArgv argvAt
  rw [found]

theorem lua_rawseti_run (table : Table) (i : Int) :
    lua_rawseti (-2) i ⟨below, value :: .table tables.length :: stack, limit, globals,
        tables ++ [table]⟩ =
      .ok () ⟨below, .table tables.length :: stack, limit, globals,
        tables ++ [table.set (.integer (.ofInt i)) value]⟩ := by
  have place : IndexedStack.slot (value :: .table tables.length :: stack) (-2) =
      some (.table tables.length) :=
    IndexedStack.slot_relative [value] (.table tables.length) stack
  unfold lua_rawseti
  dsimp only
  rw [place]
  dsimp only
  rw [Socket.modify_last]

/-- **The loop of `createargtable`** fills the table with the words that are left. -/
theorem argLoop_run {argv : List (Option Word)} (cells : argv = words.map some)
    (small : words.length < 2 ^ 31) (named : script < 2 ^ 31) (below : Nat)
    (globals : String → Value) (tables : List Table) (room : stack.length + 1 < limit)
    (rest : List Word) : ∀ (done : List Word) (table : Table), words = done ++ rest →
      (∀ key, table.get key = entry done script key) →
      ∃ filled, argLoop argv script rest.length done.length
          ⟨below, .table tables.length :: stack, limit, globals, tables ++ [table]⟩ =
            .ok () ⟨below, .table tables.length :: stack, limit, globals, tables ++ [filled]⟩ ∧
        ∀ key, filled.get key = entry words script key := by
  induction rest with
  | nil =>
      intro done table split filled
      rw [List.append_nil] at split
      subst split
      exact ⟨table, rfl, filled⟩
  | cons word rest ih =>
      intro done table split filled
      have place : done.length < 2 ^ 31 := by
        rw [split, List.length_append] at small
        omega
      have cell : argv[done.length]? = some (some word) := by
        rw [cells, split]
        simp
      have onward : words = done ++ [word] ++ rest := by
        rw [split, List.append_assoc]
        rfl
      have further : ∀ key, (table.set (.integer (.ofInt ((done.length : Int) - script)))
          (.string word)).get key = entry (done ++ [word]) script key := by
        intro key
        rw [Table.get_set, entry_concat place named, filled]
      obtain ⟨whole, ran, all⟩ := ih (done ++ [word]) _ onward further
      refine ⟨whole, ?_, all⟩
      have pushed : lua_pushstring (some word)
          ⟨below, .table tables.length :: stack, limit, globals, tables ++ [table]⟩ =
            .ok () ⟨below, .string word :: .table tables.length :: stack, limit, globals,
              tables ++ [table]⟩ := push_run room (.string word)
      rw [List.length_cons]
      unfold argLoop
      rw [bind_program_of_ok (readArgv_run cell _), bind_program_of_ok pushed,
        bind_program_of_ok (lua_rawseti_run table _)]
      simpa using ran

/-- **`createargtable`** leaves the words in `arg`, with the script at 0. -/
theorem createargtable_run {argv : List (Option Word)} (cells : argv = words.map some)
    (small : words.length < 2 ^ 31) (isScript : script < words.length)
    (room : stack.length + 2 ≤ limit) :
    ∃ made, createargtable argv words.length script ⟨below, stack, limit, globals, tables⟩ =
        .ok () made ∧ made.stack = stack ∧ HasArg made words script := by
  have empty : ∀ key, Table.get [] key = entry [] script key := by
    intro key
    cases key with
    | integer k => simp [Table.get, entry]
    | _ => rfl
  have created : lua_createtable ⟨below, stack, limit, globals, tables⟩ =
      .ok () ⟨below, .table tables.length :: stack, limit, globals, tables ++ [[]]⟩ :=
    push_run (Nat.lt_of_succ_lt room) (.table tables.length)
  have inside : stack.length + 1 < limit := room
  obtain ⟨filled, ran, all⟩ := argLoop_run cells small (by omega) below globals tables inside
    words [] [] rfl empty
  rw [List.length_nil] at ran
  refine ⟨⟨below, stack, limit, Function.update globals "arg" (.table tables.length),
    tables ++ [filled]⟩, ?_, rfl, tables.length, filled, by simp, by simp, all⟩
  unfold createargtable
  rw [if_neg (by omega), bind_program_of_ok created, bind_program_of_ok ran]
  rfl

/-- **The loop of `pushargs`** pushes the values at the next keys; the table is as far down as
values have been pushed. -/
theorem pushLoop_run {ref : Nat} {table : Table} (found : tables[ref]? = some table)
    (below limit : Nat) (stack : List Value) (globals : String → Value) (values : List Value) :
    ∀ front : List Value,
      (∀ j value, values[j]? = some value →
        table.get (.integer (.ofInt ((front.length + 1 + j : Nat) : Int))) = value) →
      front.length + values.length + 1 + stack.length ≤ limit →
      pushLoop values.length (front.length + 1)
          ⟨below, front ++ .table ref :: stack, limit, globals, tables⟩ =
        .ok () ⟨below, values.reverse ++ (front ++ .table ref :: stack), limit, globals,
          tables⟩ := by
  induction values with
  | nil => exact fun _ _ _ => rfl
  | cons value values ih =>
      intro front holds room
      have place : IndexedStack.slot (front ++ .table ref :: stack)
          (-((front.length + 1 : Nat) : Int)) = some (.table ref) := by
        rw [Int.natCast_succ]
        exact IndexedStack.slot_relative front (.table ref) stack
      have here : (tables.getD ref []).get (.integer (.ofInt ((front.length + 1 : Nat) : Int))) =
          value := by
        rw [List.getD_eq_getElem?_getD, found]
        exact holds 0 value rfl
      have got : lua_rawgeti (-((front.length + 1 : Nat) : Int)) ((front.length + 1 : Nat) : Int)
          ⟨below, front ++ .table ref :: stack, limit, globals, tables⟩ =
            .ok () ⟨below, value :: front ++ .table ref :: stack, limit, globals, tables⟩ := by
        unfold lua_rawgeti
        dsimp only
        rw [place]
        dsimp only
        rw [here]
        apply push_run
        simp only [List.length_append, List.length_cons] at room ⊢
        omega
      have further : ∀ j next, values[j]? = some next →
          table.get (.integer (.ofInt (((value :: front).length + 1 + j : Nat) : Int))) =
            next := by
        intro j next at_
        rw [← holds (j + 1) next at_, List.length_cons]
        congr 4
        omega
      have ran := ih (value :: front) further (by
        simp only [List.length_cons] at room ⊢
        omega)
      rw [List.length_cons]
      unfold pushLoop
      rw [bind_program_of_ok got]
      simpa using ran

/-- **`pushargs`** pushes the words behind the script in their order, unless the stack would grow
beyond all bounds. -/
theorem pushargs_run {env : Environment}
    (borders : ∀ table, (∃ n, IsBorder table n) → IsBorder table (env.luaH_getn table))
    (small : words.length < 2 ^ 31) (isScript : script < words.length)
    (arg : HasArg ⟨below, stack, limit, globals, tables⟩ words script)
    (room : stack.length + 2 ≤ limit) :
    let n := words.length - (script + 1)
    if LUAI_MAXSTACK < below + (stack.length + 1) + EXTRA_STACK + (n + 3) then
      ∃ after, pushargs env ⟨below, stack, limit, globals, tables⟩ =
        .error (.error "stack overflow (too many arguments to script)") after
    else ∃ wider, stack.length + n + 1 < wider ∧
      pushargs env ⟨below, stack, limit, globals, tables⟩ = .ok n
        ⟨below, ((words.drop (script + 1)).map Value.string).reverse ++ stack, wider, globals,
          tables⟩ := by
  intro n
  obtain ⟨ref, table, global, found, filled⟩ := arg
  dsimp only at global found
  have border : env.luaH_getn table = n :=
    (borders table ⟨n, isBorder_of_filled filled small isScript⟩).eq filled isScript
  have got : lua_getglobal "arg" ⟨below, stack, limit, globals, tables⟩ =
      .ok (.table ref) ⟨below, .table ref :: stack, limit, globals, tables⟩ := by
    unfold lua_getglobal
    dsimp only
    rw [push_run (by omega), global]
  have measured : luaL_len env (-1) ⟨below, .table ref :: stack, limit, globals, tables⟩ =
      .ok n ⟨below, .table ref :: stack, limit, globals, tables⟩ := by
    have place : IndexedStack.slot (.table ref :: stack) (-1) = some (.table ref) :=
      IndexedStack.slot_relative [] (Value.table ref) stack
    have length : env.luaH_getn (tables.getD ref []) = n := by
      rw [List.getD_eq_getElem?_getD, found]
      exact border
    have top : IndexedStack.remove (.integer (.ofInt n) :: .table ref :: stack) (-1) =
        some (.table ref :: stack) :=
      IndexedStack.remove_relative [] (Value.integer (.ofInt n)) (Value.table ref :: stack)
    have removed : lua_remove (-1)
        ⟨below, .integer (.ofInt n) :: .table ref :: stack, limit, globals, tables⟩ =
          .ok () ⟨below, .table ref :: stack, limit, globals, tables⟩ := by
      unfold lua_remove
      dsimp only
      rw [top]
    unfold luaL_len
    dsimp only
    rw [place]
    dsimp only
    unfold returnLength
    rw [length, bind_program_of_ok (push_run room _), bind_program_of_ok removed]
    rfl
  unfold pushargs
  rw [bind_program_of_ok got]
  dsimp only
  rw [bind_program_of_ok measured]
  by_cases full : LUAI_MAXSTACK < below + (stack.length + 1) + EXTRA_STACK + (n + 3)
  · have raised : luaL_checkstack (n + 3) "too many arguments to script"
        ⟨below, .table ref :: stack, limit, globals, tables⟩ =
          .error (.error "stack overflow (too many arguments to script)")
            ⟨below, .table ref :: stack, limit, globals, tables⟩ := if_pos full
    rw [if_pos full, bind_program_of_error raised]
    exact ⟨_, rfl⟩
  · rw [if_neg full]
    have checked : luaL_checkstack (n + 3) "too many arguments to script"
        ⟨below, .table ref :: stack, limit, globals, tables⟩ =
          .ok () ⟨below, .table ref :: stack, max limit (stack.length + 1 + (n + 3)), globals,
            tables⟩ := if_neg full
    have count : ((words.drop (script + 1)).map Value.string).length = n := by simp [n]
    have pushed := pushLoop_run found below (max limit (stack.length + 1 + (n + 3))) stack globals
      ((words.drop (script + 1)).map Value.string) []
      (fun j value at_ => by
        rw [filled]
        exact entry_argument small at_)
      (by
        rw [List.length_nil, count]
        omega)
    rw [count, List.length_nil, Nat.zero_add, List.nil_append] at pushed
    have place : ((words.drop (script + 1)).map Value.string).reverse.length = n := by
      rw [List.length_reverse, count]
    have removed : lua_remove (-(n + 1))
        ⟨below, ((words.drop (script + 1)).map Value.string).reverse ++ .table ref :: stack,
          max limit (stack.length + 1 + (n + 3)), globals, tables⟩ =
        .ok () ⟨below, ((words.drop (script + 1)).map Value.string).reverse ++ stack,
          max limit (stack.length + 1 + (n + 3)), globals, tables⟩ := by
      unfold lua_remove
      dsimp only
      rw [← place, IndexedStack.remove_relative]
    refine ⟨max limit (stack.length + 1 + (n + 3)), by omega, ?_⟩
    rw [bind_program_of_ok checked, bind_program_of_ok pushed, bind_program_of_ok removed]
    rfl

/-- **`docall`** calls the function below its arguments, with the message handler. -/
theorem docall_run (env : Environment) (values : List Value) (chunk : Value) (rest : List Value)
    (room : (values.reverse ++ chunk :: rest).length < limit) :
    ∃ after, docall env values.length
        ⟨below, values.reverse ++ chunk :: rest, limit, globals, tables⟩ =
      .ok ⟨env.msghandler, chunk, values⟩ after := by
  have base : (((values.reverse ++ chunk :: rest).length : Nat) : Int) - values.length =
      ((chunk :: rest).length : Nat) := by
    simp
  have beneath : IndexedStack.position
      ((env.msghandler :: values.reverse) ++ chunk :: rest) ((chunk :: rest).length : Nat) =
        some (values.length + 1) := by
    rw [IndexedStack.position_absolute]
    simp
  have inserted : lua_insert ((chunk :: rest).length : Nat)
      ⟨below, env.msghandler :: (values.reverse ++ chunk :: rest), limit, globals, tables⟩ =
        .ok () ⟨below, values.reverse ++ chunk :: env.msghandler :: rest, limit, globals,
          tables⟩ := by
    unfold lua_insert
    dsimp only
    rw [← List.cons_append, beneath]
    have front : (values.reverse ++ chunk :: rest).take (values.length + 1) =
        values.reverse ++ [chunk] := by
      simp [List.take_append]
    have behind : (values.reverse ++ chunk :: rest).drop (values.length + 1) = rest := by
      simp [List.drop_append]
    simp only [List.cons_append]
    rw [front, behind, List.append_assoc]
    rfl
  have handler : index2addr ((chunk :: rest).length : Nat)
      ⟨below, values.reverse ++ chunk :: env.msghandler :: rest, limit, globals, tables⟩ =
        .ok env.msghandler
          ⟨below, values.reverse ++ chunk :: env.msghandler :: rest, limit, globals, tables⟩ := by
    have place := IndexedStack.slot_absolute (values.reverse ++ [chunk]) env.msghandler rest
    rw [List.append_assoc, List.singleton_append] at place
    unfold index2addr
    dsimp only
    rw [show (chunk :: rest).length = (env.msghandler :: rest).length from rfl, place]
  have function : index2addr (-(values.length + 1))
      ⟨below, values.reverse ++ chunk :: env.msghandler :: rest, limit, globals, tables⟩ =
        .ok chunk
          ⟨below, values.reverse ++ chunk :: env.msghandler :: rest, limit, globals, tables⟩ := by
    have place := IndexedStack.slot_relative values.reverse chunk (env.msghandler :: rest)
    rw [List.length_reverse] at place
    unfold index2addr
    dsimp only
    rw [place]
  refine ⟨⟨below, values.reverse ++ chunk :: env.msghandler :: rest, limit, globals, tables⟩, ?_⟩
  unfold docall
  rw [bind_program_of_ok (lua_gettop_run _)]
  dsimp only
  rw [base, bind_program_of_ok (push_run room _), bind_program_of_ok inserted]
  have arguments : topValues values.length
      ⟨below, values.reverse ++ chunk :: env.msghandler :: rest, limit, globals, tables⟩ =
        .ok values
          ⟨below, values.reverse ++ chunk :: env.msghandler :: rest, limit, globals, tables⟩ := by
    simp [topValues]
  unfold lua_pcall
  rw [bind_program_of_ok handler, bind_program_of_ok function, bind_program_of_ok arguments]
  rfl

/-- The name of the file that `handle_script` loads; none is the standard input. -/
def scriptName (words : List Word) (script : Nat) : Option Word :=
  if words[script]? = some [byte '-'] ∧ words[script - 1]? ≠ some [byte '-', byte '-'] then none
  else words[script]?

/-- `handle_script` calls the script with these words, and with the message handler; when they do
not fit on the stack it raises an error. -/
def CallsWith (env : Environment) (argv : List (Option Word)) (script : Nat) (state : LuaState)
    (chunk : Value) (words : List Word) : Prop :=
  if LUAI_MAXSTACK < state.below + (state.stack.length + 2) + EXTRA_STACK + (words.length + 3) then
    ∃ after, handle_script env argv script state =
      .error (.error "stack overflow (too many arguments to script)") after
  else ∃ after, handle_script env argv script state =
    .ok (some ⟨env.msghandler, chunk, words.map .string⟩) after

/-- **`handle_script`** calls the script with the words behind its name. -/
theorem handle_script_run {env : Environment} {argv : List (Option Word)} {chunk : Value}
    (borders : ∀ table, (∃ n, IsBorder table n) → IsBorder table (env.luaH_getn table))
    (cells : argv = words.map some) (small : words.length < 2 ^ 31)
    (isScript : script < words.length) (behind : 1 ≤ script)
    (loads : env.loadfile (scriptName words script) = .ok chunk)
    (arg : HasArg ⟨below, stack, limit, globals, tables⟩ words script)
    (room : stack.length + 3 ≤ limit) :
    CallsWith env argv script ⟨below, stack, limit, globals, tables⟩ chunk
      (words.drop (script + 1)) := by
  have cell : argv[script]? = some (some words[script]) := by
    rw [cells]
    simp [isScript]
  have named : fileName argv script words[script] ⟨below, stack, limit, globals, tables⟩ =
      .ok (scriptName words script) ⟨below, stack, limit, globals, tables⟩ := by
    unfold fileName scriptName
    rw [List.getElem?_eq_getElem isScript]
    by_cases isDash : words[script] = [byte '-']
    · have before : script - 1 < words.length := by omega
      have previous : argv[script - 1]? = some (some words[script - 1]) := by
        rw [cells]
        simp [before]
      rw [if_pos isDash, bind_program_of_ok (readArgv_run previous _),
        List.getElem?_eq_getElem before]
      by_cases dashes : words[script - 1] = [byte '-', byte '-']
      · rw [if_neg (by simp [dashes]), if_neg (by simp [dashes])]
        rfl
      · rw [if_pos (by simpa using dashes), if_pos (by simp [isDash, dashes])]
        rfl
    · rw [if_neg isDash, if_neg (by simp [isDash])]
      rfl
  have loaded : push chunk ⟨below, stack, limit, globals, tables⟩ =
      .ok () ⟨below, chunk :: stack, limit, globals, tables⟩ := push_run (by omega) chunk
  have pushes := pushargs_run borders small isScript
    (show HasArg ⟨below, chunk :: stack, limit, globals, tables⟩ words script from arg) room
  dsimp only at pushes
  rw [List.length_cons] at pushes
  unfold CallsWith
  rw [List.length_drop]
  unfold handle_script
  rw [bind_program_of_ok (readArgv_run cell _)]
  dsimp only
  rw [bind_program_of_ok named, loads]
  dsimp only
  rw [bind_program_of_ok loaded]
  by_cases full : LUAI_MAXSTACK <
      below + (stack.length + 2) + EXTRA_STACK + (words.length - (script + 1) + 3)
  · rw [if_pos full] at pushes ⊢
    obtain ⟨after, raised⟩ := pushes
    rw [bind_program_of_error raised]
    exact ⟨after, rfl⟩
  · rw [if_neg full] at pushes ⊢
    obtain ⟨wider, enough, ran⟩ := pushes
    have count : ((words.drop (script + 1)).map Value.string).length =
        words.length - (script + 1) := by simp
    have fits : (((words.drop (script + 1)).map Value.string).reverse ++
        chunk :: stack).length < wider := by
      rw [List.length_append, List.length_reverse, count, List.length_cons]
      omega
    obtain ⟨after, called⟩ := docall_run env ((words.drop (script + 1)).map Value.string) chunk
      stack fits
    rw [count] at called
    rw [bind_program_of_ok ran, bind_program_of_ok called]
    exact ⟨after, rfl⟩

end Runs

/-! ## From the command line to the script -/

section Services

variable {CMD_LINE : List UInt8} {mask script : Nat}

/-- `collectargs` begins behind the name of the program. -/
theorem one_le_first (collected : CommandLine.collectargs (argv CMD_LINE) = .ok (mask, script)) :
    1 ≤ script := by
  have behind : (argv CMD_LINE).drop 1 =
      (CommandLine.words CMD_LINE).map some ++ CommandLine.ending false := by
    simp [argv, args, CommandLine.ending]
  cases CommandLine.walked (CommandLine.words CMD_LINE) 1 0 behind CommandLine.words_clean with
  | leaves _ _ _ left => cases left.symm.trans collected
  | stays _ _ _ stayed bounds _ =>
      cases stayed.symm.trans collected
      exact bounds.1

/-- **The words of a command line reach the script.** When `collectargs` finds a script among the
words of `startService`, `arg` holds all words with the script at 0, and the script is called with
the words behind it, as long as the options leave `arg` as it is. -/
theorem script_gets_arguments {env : Environment}
    (borders : ∀ table, (∃ n, IsBorder table n) → IsBorder table (env.luaH_getn table))
    (collected : CommandLine.collectargs (argv CMD_LINE) = .ok (mask, script))
    (isScript : script < argc CMD_LINE) (small : argc CMD_LINE < 2 ^ 31)
    {start : LuaState} (room : start.stack.length + 2 ≤ start.limit) :
    ∃ made, createargtable (argv CMD_LINE) (argc CMD_LINE) script start = .ok () made ∧
      made.stack = start.stack ∧ HasArg made (args CMD_LINE) script ∧
      ∀ later chunk, HasArg later (args CMD_LINE) script →
        later.stack.length + 3 ≤ later.limit →
        env.loadfile (scriptName (args CMD_LINE) script) = .ok chunk →
          CallsWith env (argv CMD_LINE) script later chunk ((args CMD_LINE).drop (script + 1)) := by
  obtain ⟨below, stack, limit, globals, tables⟩ := start
  obtain ⟨made, ran, kept, has⟩ := createargtable_run rfl small isScript room
  refine ⟨made, ran, kept, has, ?_⟩
  intro later chunk arg fits loads
  obtain ⟨below, stack, limit, globals, tables⟩ := later
  exact handle_script_run borders rfl small isScript (one_le_first collected) loads arg fits

/-- The first border from a number on, among so many. -/
def searchBorder (table : Table) : Nat → Nat → Nat
  | 0, n => n
  | rounds + 1, n =>
      if table.get (.integer (.ofInt (n + 1 : Nat))) = .nil then n
      else searchBorder table rounds (n + 1)

theorem searchBorder_spec (table : Table) : ∀ rounds n : Nat,
    (n = 0 ∨ table.get (.integer (.ofInt n)) ≠ .nil) →
    (∃ m : Nat, n ≤ m ∧ m < n + rounds ∧ table.get (.integer (.ofInt (m + 1 : Nat))) = .nil) →
    searchBorder table rounds n < n + rounds ∧
      (searchBorder table rounds n = 0 ∨
        table.get (.integer (.ofInt (searchBorder table rounds n))) ≠ .nil) ∧
      table.get (.integer (.ofInt (searchBorder table rounds n + 1 : Nat))) = .nil := by
  intro rounds
  induction rounds with
  | zero =>
      rintro n _ ⟨m, low, high, _⟩
      omega
  | succ rounds ih =>
      rintro n before ⟨m, low, high, ends⟩
      unfold searchBorder
      by_cases here : table.get (.integer (.ofInt (n + 1 : Nat))) = .nil
      · rw [if_pos here]
        exact ⟨by omega, before, here⟩
      · have apart : m ≠ n := by
          rintro rfl
          exact here ends
        obtain ⟨bound, border⟩ := ih (n + 1) (Or.inr here) ⟨m, by omega, by omega, ends⟩
        rw [if_neg here]
        exact ⟨by omega, border⟩

/-- The least border. -/
def leastBorder (table : Table) : Nat := searchBorder table (2 ^ 31) 0

theorem isBorder_leastBorder (table : Table) (some_ : ∃ n, IsBorder table n) :
    IsBorder table (leastBorder table) := by
  obtain ⟨n, small, _, ends⟩ := some_
  obtain ⟨bound, border⟩ := searchBorder_spec table (2 ^ 31) 0 (Or.inl rfl)
    ⟨n, Nat.zero_le n, by omega, ends⟩
  unfold leastBorder
  exact ⟨by omega, border⟩

/-- The words of `a b`. -/
theorem words_a_b : CommandLine.words [97, 32, 98] = [[97], [98]] := by
  have first : SplitString.find [97, 32, 98] [byte ' '] 0 = some 1 := by decide
  have last : SplitString.find [97, 32, 98] [byte ' '] (1 + [byte ' '].length) = none := by decide
  have copied : CommandLine.cString [97, 32, 98] = [97, 32, 98] := by decide
  unfold CommandLine.words SplitString.splitString
  dsimp only
  rw [copied, SplitString.splitFrom_some _ first, SplitString.splitFrom_none _ last]
  rfl

theorem args_a_b : args [97, 32, 98] =
    [CommandLine.cString ("EXE_HOLDER ".toList.map byte), [97], [98]] := by
  unfold args
  rw [words_a_b]

/-- A file with the name `a`. -/
def aFile : Environment where
  loadfile := fun name => if name = some [97] then .ok (.object 1) else .error .nil
  luaH_getn := leastBorder
  msghandler := .object 0

/-- The script `a` is called with `b`, in a state with the same table. -/
theorem script_gets_arguments_a_b :
    ∃ made, createargtable (argv [97, 32, 98]) (argc [97, 32, 98]) 1
        ⟨0, [], 20, fun _ => .nil, []⟩ = .ok () made ∧
      HasArg made (args [97, 32, 98]) 1 ∧
      ∃ after, handle_script aFile (argv [97, 32, 98]) 1
        ⟨0, [], 20, made.globals, made.tables⟩ =
          .ok (some ⟨.object 0, .object 1, [.string [98]]⟩) after := by
  have found : argv [97, 32, 98] = some (CommandLine.cString ("EXE_HOLDER ".toList.map byte)) ::
      [some [97], some [98]] := by
    unfold argv
    rw [args_a_b]
    rfl
  have count : argc [97, 32, 98] = 3 := by
    rw [CommandLine.argc_eq, words_a_b]
    rfl
  have collected : CommandLine.collectargs (argv [97, 32, 98]) = .ok (0, 1) := by
    rw [found]
    unfold CommandLine.collectargs
    rw [CommandLine.collectFrom_word (show argvAt _ 1 = .ok (some [97]) from rfl)]
    rfl
  have borders : ∀ table, (∃ n, IsBorder table n) → IsBorder table (aFile.luaH_getn table) :=
    isBorder_leastBorder
  have loads : aFile.loadfile (scriptName (args [97, 32, 98]) 1) = .ok (.object 1) := by
    rw [args_a_b]
    rfl
  obtain ⟨made, ran, _, has, calls⟩ := script_gets_arguments borders collected
    (by rw [count]; decide) (by rw [count]; decide)
    (show (LuaState.mk 0 [] 20 (fun _ => .nil) []).stack.length + 2 ≤ 20 by decide)
  have room : 0 + 3 ≤ 20 := by decide
  have called := calls ⟨0, [], 20, made.globals, made.tables⟩ (.object 1) has room loads
  have fits : ¬ LUAI_MAXSTACK < 0 + (0 + 2) + EXTRA_STACK + (1 + 3) := by decide
  rw [args_a_b] at called
  change if LUAI_MAXSTACK < 0 + (0 + 2) + EXTRA_STACK + (1 + 3) then _ else _ at called
  rw [if_neg fits] at called
  exact ⟨made, ran, has, called⟩

end Services

end Script

end EasyLua
