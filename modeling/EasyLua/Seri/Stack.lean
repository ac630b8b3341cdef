import EasyLua.Seri.Copy
import EasyLua.Seri.Reach

/-!
# Packing from the Lua stack

`pack_one` and the functions it calls as the source has them: a value is given by its index
on the Lua stack, and tables are read by calls that push and pop. The stack is a list, its
top first. The `__pairs` metamethod of a table makes an iterator, which yields its pairs to a
caller that passes on the state and the last key, and refuses every other call.

Packing from the stack writes what packing the value writes, and leaves the stack as it was.
-/

namespace EasyLua.Seri.OnStack

/-- A stack slot: a value, the `__pairs` metamethod of a table, or an iterator. -/
inductive Slot
  | value (value : LuaValue)
  | metapairs (ref : Nat)
  | iterator (id : Nat)
  deriving DecidableEq

/-- An iterator: the state and the control value that its next call must be given, and the
pairs it has not yielded. -/
structure Iterator where
  state : LuaValue
  control : LuaValue
  remaining : List (LuaValue × LuaValue)

/-- The stack, its top first, and the iterators made so far. -/
structure LuaState where
  stack : List Slot
  iterators : List Iterator

/-- Why packing ends without a result. -/
inductive StackError
  /-- A Lua error with this text. -/
  | lua (message : String)
  /-- A slot that does not exist or is not what the call needs. -/
  | badSlot
  | outOfFuel

abbrev LuaM := StateT LuaState (Except StackError)

/-! ## The Lua API -/

/-- `lua_gettop`. -/
def luaGettop : LuaM Int := fun state => .ok (state.stack.length, state)

/-- The slot at an index: from the top if it is negative, else from the bottom. -/
def LuaState.slot (state : LuaState) (idx : Int) : Option Slot :=
  if idx < 0 then state.stack[(-idx - 1).toNat]?
  else if 0 < idx then state.stack.reverse[(idx - 1).toNat]?
  else none

/-- `index2addr`. -/
def index2addr (idx : Int) : LuaM Slot := fun state =>
  match state.slot idx with
  | some slot => .ok (slot, state)
  | none => .error .badSlot

def push (slot : Slot) : LuaM Unit := fun state =>
  .ok ((), { state with stack := slot :: state.stack })

/-- `lua_pushnil`. -/
def luaPushnil : LuaM Unit := push (.value .nil)

/-- `lua_pushvalue`. -/
def luaPushvalue (idx : Int) : LuaM Unit := do
  let slot ← index2addr idx
  push slot

/-- `lua_pop`. -/
def luaPop (n : Nat) : LuaM Unit := fun state =>
  if n ≤ state.stack.length then .ok ((), { state with stack := state.stack.drop n })
  else .error .badSlot

/-- `lua_copy` to an index relative to the top. -/
def luaCopy (fromidx toidx : Int) : LuaM Unit := do
  let slot ← index2addr fromidx
  let _ ← index2addr toidx
  modify fun state => { state with stack := state.stack.set (-toidx - 1).toNat slot }

/-- The table at an index. -/
def tableAt (idx : Int) : LuaM Nat := do
  match ← index2addr idx with
  | .value (.table ref) => return ref
  | _ => throw .badSlot

variable (heap : Heap) (start : Nat → Nat → LuaValue × LuaValue)

/-- `lua_rawlen` of a table. -/
def luaRawlen (idx : Int) : LuaM Nat := do
  let ref ← tableAt idx
  return (heap ref).border

/-- `lua_rawgeti`. -/
def luaRawgeti (idx n : Int) : LuaM Unit := do
  let ref ← tableAt idx
  push (.value ((heap ref).rawgeti n))

/-- The entries of a table behind a key, all of them behind nil. -/
def entriesAfter (table : LuaTable) (key : LuaValue) : List (LuaValue × LuaValue) :=
  if key = .nil then table.entries
  else (table.entries.dropWhile fun entry => entry.1 ≠ key).tail

/-- `lua_next`: the key at the top is replaced by the next key and its value, or popped. -/
def luaNext (idx : Int) : LuaM Bool := do
  let ref ← tableAt idx
  match ← index2addr (-1) with
  | .value key => do
      luaPop 1
      match entriesAfter (heap ref) key with
      | [] => return false
      | entry :: _ => do
          push (.value entry.1)
          push (.value entry.2)
          return true
  | _ => throw .badSlot

/-- `luaL_getmetafield` with the name `__pairs`. -/
def luaLGetmetafield (idx : Int) : LuaM Bool := do
  let ref ← tableAt idx
  match (heap ref).pairs with
  | none => return false
  | some _ => do
      push (.metapairs ref)
      return true

/-- What a call returns. The metamethod makes an iterator and chooses its state and first
control value; an iterator yields its next pair, or nil. -/
def invoke (function : Slot) (arguments : List Slot) (iterators : List Iterator) :
    Except StackError (List Slot × List Iterator) :=
  match function with
  | .metapairs ref =>
      match (heap ref).pairs with
      | some pairs =>
          if arguments = [.value (.table ref)] then
            let (state, control) := start ref iterators.length
            .ok ([.iterator iterators.length, .value state, .value control],
              iterators ++ [{ state := state, control := control, remaining := pairs }])
          else .error .badSlot
      | none => .error .badSlot
  | .iterator id =>
      match iterators[id]? with
      | some iterator =>
          if arguments = [.value iterator.state, .value iterator.control] then
            match iterator.remaining with
            | [] => .ok ([.value .nil], iterators)
            | pair :: remaining =>
                .ok ([.value pair.1, .value pair.2],
                  iterators.set id { iterator with control := pair.1, remaining := remaining })
          else .error .badSlot
      | none => .error .badSlot
  | .value _ => .error .badSlot

/-- Results are cut or filled up with nil to the number that is asked for. -/
def adjust (nresults : Nat) (results : List Slot) : List Slot :=
  (results ++ List.replicate nresults (Slot.value .nil)).take nresults

/-- `lua_call`. -/
def luaCall (nargs nresults : Nat) : LuaM Unit := fun state =>
  match state.stack.drop nargs with
  | [] => .error .badSlot
  | function :: below =>
      (invoke heap start function (state.stack.take nargs).reverse state.iterators).map
        fun (results, iterators) =>
          ((), { stack := (adjust nresults results).reverse ++ below, iterators := iterators })

/-! ## Packing -/

/-- How the value at an index is packed. -/
abbrev PackAt := WriteBlock → Int → LuaM WriteBlock

section Tables

variable (packOne : PackAt)

/-- The loop of `wb_table_array`, with `count` rounds left from `i` on. -/
def arrayLoop (index : Int) : Nat → Int → WriteBlock → LuaM WriteBlock
  | 0, _, wb => return wb
  | count + 1, i, wb => do
      luaRawgeti heap index i
      let wb ← packOne wb (-1)
      luaPop 1
      arrayLoop index count (i + 1) wb

/-- `wb_table_array`. -/
def wbTableArray (wb : WriteBlock) (index : Int) : LuaM (WriteBlock × Int) := do
  let length ← luaRawlen heap index
  let arraySize := toInt length
  let wb ← arrayLoop heap packOne index arraySize.toNat 1 (arrayHeader wb arraySize)
  return (wb, arraySize)

/-- A slot with an integer from 1 to `arraySize`. -/
def Slot.inArray (arraySize : Int) : Slot → Bool
  | .value key => key.inArray arraySize
  | _ => false

/-- The loop of `wb_table_hash`. -/
def hashLoop (index arraySize : Int) : Nat → WriteBlock → LuaM WriteBlock
  | 0, _ => throw .outOfFuel
  | fuel + 1, wb => do
      if ← luaNext heap index then
        let key ← index2addr (-2)
        if key.inArray arraySize then
          luaPop 1
          hashLoop index arraySize fuel wb
        else
          let wb ← packOne wb (-2)
          let wb ← packOne wb (-1)
          luaPop 1
          hashLoop index arraySize fuel wb
      else return wb

/-- `wb_table_hash`. -/
def wbTableHash (fuel : Nat) (wb : WriteBlock) (index arraySize : Int) : LuaM WriteBlock := do
  luaPushnil
  let wb ← hashLoop heap packOne index arraySize fuel wb
  return wbNil wb

/-- The loop of `wb_table_metapairs`. -/
def metapairsLoop : Nat → WriteBlock → LuaM WriteBlock
  | 0, _ => throw .outOfFuel
  | fuel + 1, wb => do
      luaPushvalue (-2)
      luaPushvalue (-2)
      luaCopy (-5) (-3)
      luaCall heap start 2 2
      let key ← index2addr (-2)
      if key = .value .nil then
        luaPop 4
        return wb
      else
        let wb ← packOne wb (-2)
        let wb ← packOne wb (-1)
        luaPop 1
        metapairsLoop fuel wb

/-- `wb_table_metapairs`, with the metamethod at the top of the stack. -/
def wbTableMetapairs (fuel : Nat) (wb : WriteBlock) (index : Int) : LuaM WriteBlock := do
  let wb := wb.push [combineType TYPE_TABLE 0]
  luaPushvalue index
  luaCall heap start 1 3
  let wb ← metapairsLoop heap start packOne fuel wb
  return wbNil wb

/-- The index from the bottom of a slot at an index from the top. -/
def absolute (index : Int) : LuaM Int := do
  let top ← luaGettop
  return if index < 0 then top + index + 1 else index

/-- `wb_table`. -/
def wbTable (fuel : Nat) (wb : WriteBlock) (index : Int) : LuaM WriteBlock := do
  let index ← absolute index
  if ← luaLGetmetafield heap index then wbTableMetapairs heap start packOne fuel wb index
  else
    let (wb, arraySize) ← wbTableArray heap packOne wb index
    wbTableHash heap packOne fuel wb index arraySize

end Tables

/-- `pack_one`, at the depth at which `remaining` more levels are allowed. -/
def packOne (fuel : Nat) : Nat → PackAt
  | 0, _, _ => throw (.lua "serialize can't pack too depth table")
  | remaining + 1, wb, index => do
      match ← index2addr index with
      | .value .nil => return wbNil wb
      | .value (.scalar (.integer x)) => return wbInteger wb x
      | .value (.scalar (.number bits)) => return wbReal wb bits
      | .value (.scalar (.boolean boolean)) => return wbBoolean wb boolean
      | .value (.scalar (.string str)) => return wbString wb str (toInt str.length)
      | .value (.scalar (.lightUserdata pointer)) => return wbPointer wb pointer
      | .value (.table _) => do
          let index ← absolute index
          wbTable heap start (packOne fuel remaining) fuel wb index
      | .value (.unsupported typename _) =>
          throw (.lua ("Unsupport type " ++ typename ++ " to serialize"))
      | _ => throw (.lua "Unsupport type function to serialize")

/-- The loop of `pack_from`, with `count` arguments left from the index `i` on. -/
def packFrom (fuel : Nat) : Nat → Int → WriteBlock → LuaM WriteBlock
  | 0, _, wb => return wb
  | count + 1, i, wb => do
      let wb ← packOne heap start fuel (MAX_DEPTH + 1) wb i
      packFrom fuel count (i + 1) wb

/-- `luaseri_pack`, with its arguments on the stack. -/
def luaseriPack (fuel : Nat) : LuaM (Bytes × Int) := do
  let n ← luaGettop
  let wb ← packFrom heap start fuel n.toNat 1 .init
  return (seri wb.blocks wb.len, wb.len)

/-! ## What the calls do -/

variable {heap : Heap} {start : Nat → Nat → LuaValue × LuaValue}

/-- A program runs on from where its first part returns. -/
theorem bind_of_ok {α β : Type} {program : LuaM α} {next : α → LuaM β} {state after : LuaState}
    {value : α} (ran : program state = .ok (value, after)) :
    (program >>= next) state = next value after := by
  change (program state >>= fun result => next result.1 result.2) = _
  rw [ran]
  rfl

theorem index2addr_of_slot {state : LuaState} {idx : Int} {slot : Slot}
    (found : state.slot idx = some slot) : index2addr idx state = .ok (slot, state) := by
  unfold index2addr
  rw [found]

theorem tableAt_of_slot {state : LuaState} {idx : Int} {ref : Nat}
    (found : state.slot idx = some (.value (.table ref))) :
    tableAt idx state = .ok (ref, state) := by
  unfold tableAt
  rw [bind_of_ok (index2addr_of_slot found)]
  rfl

/-- An index from the bottom keeps its slot when something is pushed. -/
theorem slot_push {state : LuaState} {idx : Int} (bottom : 0 < idx) {slot : Slot}
    (found : state.slot idx = some slot) (above : List Slot) (iterators : List Iterator) :
    LuaState.slot { stack := above ++ state.stack, iterators := iterators } idx = some slot := by
  unfold LuaState.slot at found ⊢
  rw [if_neg (by omega), if_pos bottom] at found ⊢
  rw [List.reverse_append, List.getElem?_append_left]
  · exact found
  · exact (List.getElem?_eq_some_iff.mp found).choose

/-- `absolute` gives the same slot an index from the bottom. -/
theorem absolute_slot {state : LuaState} {idx : Int} {slot : Slot}
    (found : state.slot idx = some slot) :
    ∃ index, absolute idx state = .ok (index, state) ∧ 0 < index ∧
      state.slot index = some slot := by
  unfold LuaState.slot at found
  refine ⟨if idx < 0 then state.stack.length + idx + 1 else idx, rfl, ?_⟩
  by_cases relative : idx < 0
  · rw [if_pos relative] at found ⊢
    obtain ⟨inside, _⟩ := List.getElem?_eq_some_iff.mp found
    refine ⟨by omega, ?_⟩
    unfold LuaState.slot
    rw [if_neg (by omega), if_pos (by omega), List.getElem?_reverse (by omega)]
    rw [show state.stack.length - 1 - (state.stack.length + idx + 1 - 1).toNat =
      (-idx - 1).toNat by omega]
    exact found
  · rw [if_neg relative] at found ⊢
    have bottom : 0 < idx := by
      by_contra zero
      rw [if_neg zero] at found
      exact nomatch found
    refine ⟨bottom, ?_⟩
    unfold LuaState.slot
    rw [if_neg relative]
    exact found

theorem entriesAfter_nil (table : LuaTable) : entriesAfter table .nil = table.entries := if_pos rfl

/-- After a key of a table come the entries behind it. -/
theorem entriesAfter_of_split {table : LuaTable} {before after : List (LuaValue × LuaValue)}
    {entry : LuaValue × LuaValue} (split : table.entries = before ++ entry :: after) :
    entriesAfter table entry.1 = after := by
  have member : entry ∈ table.entries := by
    rw [split]
    exact List.mem_append_right _ List.mem_cons_self
  have present : entry.1 ≠ .nil := by
    intro absent
    have isKey := table.isKey entry member
    rw [absent] at isKey
    exact isKey
  have different : ∀ other ∈ before, decide (other.1 ≠ entry.1) = true := by
    intro other earlier
    have nodup := table.keys_nodup
    rw [split, List.map_append, List.map_cons, List.nodup_append] at nodup
    exact decide_eq_true (nodup.2.2 _ (List.mem_map_of_mem earlier) _ List.mem_cons_self)
  unfold entriesAfter
  rw [if_neg present, split, List.dropWhile_append_of_pos different,
    List.dropWhile_cons_of_neg (by simp)]
  rfl

theorem luaPop_one (slot : Slot) (stack : List Slot) (iterators : List Iterator) :
    luaPop 1 ⟨slot :: stack, iterators⟩ = .ok ((), ⟨stack, iterators⟩) :=
  if_pos (Nat.le_add_left 1 stack.length)

/-- `lua_next` pops the key, or nil, and looks for the entry after it. -/
theorem luaNext_pops {ref : Nat} {index : Int} {key : LuaValue} {stack : List Slot}
    {iterators : List Iterator}
    (table : LuaState.slot ⟨.value key :: stack, iterators⟩ index = some (.value (.table ref))) :
    luaNext heap index ⟨.value key :: stack, iterators⟩ =
      (match entriesAfter (heap ref) key with
        | [] => return false
        | entry :: _ => do
            push (.value entry.1)
            push (.value entry.2)
            return true : LuaM Bool) ⟨stack, iterators⟩ := by
  have top : index2addr (-1) ⟨.value key :: stack, iterators⟩ =
      .ok (.value key, ⟨.value key :: stack, iterators⟩) := rfl
  unfold luaNext
  rw [bind_of_ok (tableAt_of_slot table), bind_of_ok top]
  simp only
  rw [bind_of_ok (luaPop_one _ stack iterators)]

theorem luaNext_cons {ref : Nat} {index : Int} {key : LuaValue} {entry : LuaValue × LuaValue}
    {after : List (LuaValue × LuaValue)} {stack : List Slot} {iterators : List Iterator}
    (table : LuaState.slot ⟨.value key :: stack, iterators⟩ index = some (.value (.table ref)))
    (next : entriesAfter (heap ref) key = entry :: after) :
    luaNext heap index ⟨.value key :: stack, iterators⟩ =
      .ok (true, ⟨.value entry.2 :: .value entry.1 :: stack, iterators⟩) := by
  rw [luaNext_pops table, next]
  rfl

theorem luaNext_nil {ref : Nat} {index : Int} {key : LuaValue} {stack : List Slot}
    {iterators : List Iterator}
    (table : LuaState.slot ⟨.value key :: stack, iterators⟩ index = some (.value (.table ref)))
    (next : entriesAfter (heap ref) key = []) :
    luaNext heap index ⟨.value key :: stack, iterators⟩ = .ok (false, ⟨stack, iterators⟩) := by
  rw [luaNext_pops table, next]
  rfl

/-- `lua_call` of a function below its arguments. -/
theorem luaCall_run {function : Slot} {arguments results : List Slot} {nresults : Nat}
    {stack : List Slot} {iterators after : List Iterator}
    (invoked : invoke heap start function arguments iterators = .ok (results, after)) :
    luaCall heap start arguments.length nresults
        ⟨arguments.reverse ++ function :: stack, iterators⟩ =
      .ok ((), ⟨(adjust nresults results).reverse ++ stack, after⟩) := by
  have length : arguments.length = arguments.reverse.length := List.length_reverse.symm
  unfold luaCall
  simp only
  rw [length, List.drop_left, List.take_left, List.reverse_reverse]
  simp only
  rw [invoked]
  rfl

/-- The calls of one round of `wb_table_metapairs` before the test for nil: the iterator is
called with the state and the control value, and the latter is replaced. -/
theorem callIterator {function state control : Slot} {results : List Slot}
    {stack : List Slot} {iterators after : List Iterator}
    (invoked : invoke heap start function [state, control] iterators = .ok (results, after))
    {α : Type} (next : LuaM α) :
    (do
      luaPushvalue (-2)
      luaPushvalue (-2)
      luaCopy (-5) (-3)
      luaCall heap start 2 2
      next) ⟨control :: state :: function :: stack, iterators⟩ =
      next ⟨(adjust 2 results).reverse ++ state :: function :: stack, after⟩ := by
  -- the function has been copied to the place of the control value, below its arguments
  have called : luaCall heap start 2 2
      ⟨control :: state :: function :: state :: function :: stack, iterators⟩ =
        .ok ((), ⟨(adjust 2 results).reverse ++ state :: function :: stack, after⟩) :=
    luaCall_run invoked
  change (luaCall heap start 2 2 >>= fun _ => next)
    ⟨control :: state :: function :: state :: function :: stack, iterators⟩ = _
  rw [bind_of_ok called]

/-- An iterator that is called as it has to be yields its next pair. -/
theorem invoke_iterator {state control : LuaValue} {pair : LuaValue × LuaValue}
    {remaining : List (LuaValue × LuaValue)} (made after : List Iterator) :
    invoke heap start (.iterator made.length) [.value state, .value control]
        (made ++ ⟨state, control, pair :: remaining⟩ :: after) =
      .ok ([.value pair.1, .value pair.2],
        made ++ ⟨state, pair.1, remaining⟩ :: after) := by
  unfold invoke
  simp

/-- The metamethod makes an iterator. -/
theorem invoke_metapairs {ref : Nat} {pairs : List (LuaValue × LuaValue)}
    (iterators : List Iterator) (isPairs : (heap ref).pairs = some pairs) :
    invoke heap start (.metapairs ref) [.value (.table ref)] iterators =
      .ok ([.iterator iterators.length, .value (start ref iterators.length).1,
          .value (start ref iterators.length).2],
        iterators ++
          [⟨(start ref iterators.length).1, (start ref iterators.length).2, pairs⟩]) := by
  unfold invoke
  simp [isPairs]

theorem invoke_exhausted {state control : LuaValue} (made after : List Iterator) :
    invoke heap start (.iterator made.length) [.value state, .value control]
        (made ++ ⟨state, control, []⟩ :: after) =
      .ok ([.value .nil], made ++ ⟨state, control, []⟩ :: after) := by
  unfold invoke
  simp

/-- More iterators have been made. -/
def LuaState.grow (state : LuaState) (more : List Iterator) : LuaState :=
  { state with iterators := state.iterators ++ more }

theorem LuaState.grow_nil (state : LuaState) : state.grow [] = state := by
  unfold grow
  rw [List.append_nil]

theorem LuaState.grow_grow (state : LuaState) (first second : List Iterator) :
    (state.grow first).grow second = state.grow (first ++ second) := by
  unfold grow
  rw [List.append_assoc]

/-- What is packed before a closing nil. -/
theorem of_wbNil {result : Except String WriteBlock} {after : WriteBlock}
    (packed : (do
      let wb ← result
      return wbNil wb) = .ok after) : ∃ wb, result = .ok wb ∧ wbNil wb = after := by
  cases result with
  | ok wb => exact ⟨wb, rfl, Except.ok.inj packed⟩
  | error message => exact nomatch packed

/-! ## Packing from the stack packs the value -/

/-- Packing the slot of a value from the stack writes what packing the value writes, and
leaves the stack as it was. -/
def Follows (packOne : PackOne) (packAt : PackAt) (value : LuaValue) : Prop :=
  ∀ wb after state idx, state.slot idx = some (.value value) → packOne wb value = .ok after →
    ∃ more, packAt wb idx state = .ok (after, state.grow more)

section Loops

variable {packOne : PackOne} {packAt : PackAt} {ref : Nat} {index : Int}

theorem arrayLoop_follows (count first : Nat) {wb after : WriteBlock}
    {state : LuaState} (table : state.slot index = some (.value (.table ref)))
    (follows : ∀ j ∈ List.range' first count,
      Follows packOne packAt ((heap ref).rawgeti (j + 1)))
    (packed : (List.range' first count).foldlM (packField packOne (heap ref)) wb = .ok after) :
    ∃ more, arrayLoop heap packAt index count (first + 1) wb state =
      .ok (after, state.grow more) := by
  induction count generalizing first wb state with
  | zero =>
      cases packed
      exact ⟨[], by rw [LuaState.grow_nil]; rfl⟩
  | succ count ih =>
      rw [List.range'_succ] at follows packed
      rw [List.foldlM_cons] at packed
      cases one : packField packOne (heap ref) wb first with
      | error message =>
          rw [one] at packed
          exact nomatch packed
      | ok next =>
          rw [one] at packed
          have pushed : luaRawgeti heap index (first + 1) state =
              .ok ((), ⟨.value ((heap ref).rawgeti (first + 1)) :: state.stack,
                state.iterators⟩) := by
            unfold luaRawgeti
            rw [bind_of_ok (tableAt_of_slot table)]
            rfl
          obtain ⟨made, packedOne⟩ := follows first List.mem_cons_self wb next
            ⟨.value ((heap ref).rawgeti (first + 1)) :: state.stack, state.iterators⟩ (-1) rfl one
          have popped : luaPop 1 (LuaState.grow
              ⟨.value ((heap ref).rawgeti (first + 1)) :: state.stack, state.iterators⟩ made) =
                .ok ((), state.grow made) := luaPop_one _ _ _
          have grown : (state.grow made).slot index = some (.value (.table ref)) := table
          obtain ⟨more, rest⟩ := ih (first + 1) grown
            (fun j member => follows j (List.mem_cons_of_mem first member)) packed
          refine ⟨made ++ more, ?_⟩
          unfold arrayLoop
          rw [bind_of_ok pushed, bind_of_ok packedOne, bind_of_ok popped, ← LuaState.grow_grow]
          exact rest

/-- A key and its value at the top of the stack are packed, and the value is popped. -/
theorem packPair_follows {pair : LuaValue × LuaValue} (key : Follows packOne packAt pair.1)
    (value : Follows packOne packAt pair.2) {wb after : WriteBlock} (stack : List Slot)
    (iterators : List Iterator) {α : Type} (next : WriteBlock → LuaM α)
    (packed : (do
      let wb ← packOne wb pair.1
      packOne wb pair.2) = .ok after) :
    ∃ more, (do
      let wb ← packAt wb (-2)
      let wb ← packAt wb (-1)
      luaPop 1
      next wb) ⟨.value pair.2 :: .value pair.1 :: stack, iterators⟩ =
        next after ⟨.value pair.1 :: stack, iterators ++ more⟩ := by
  cases first : packOne wb pair.1 with
  | error message =>
      rw [first] at packed
      exact nomatch packed
  | ok middle =>
      rw [first] at packed
      obtain ⟨made, packedKey⟩ := key wb middle
        ⟨.value pair.2 :: .value pair.1 :: stack, iterators⟩ (-2) rfl first
      obtain ⟨more, packedValue⟩ := value middle after
        (LuaState.grow ⟨.value pair.2 :: .value pair.1 :: stack, iterators⟩ made) (-1) rfl packed
      have popped : luaPop 1 (LuaState.grow (LuaState.grow
          ⟨.value pair.2 :: .value pair.1 :: stack, iterators⟩ made) more) =
            .ok ((), ⟨.value pair.1 :: stack, iterators ++ (made ++ more)⟩) := by
        rw [LuaState.grow_grow]
        exact luaPop_one _ _ _
      refine ⟨made ++ more, ?_⟩
      rw [bind_of_ok packedKey, bind_of_ok packedValue, bind_of_ok popped]

/-- The loop of `wb_table_hash` goes on behind the key at the top of the stack. -/
theorem hashLoop_follows (bottom : 0 < index) {arraySize : Int}
    (after : List (LuaValue × LuaValue)) {before : List (LuaValue × LuaValue)} {key : LuaValue}
    (split : (heap ref).entries = before ++ after)
    (next : entriesAfter (heap ref) key = after)
    (follows : ∀ entry ∈ after, Follows packOne packAt entry.1 ∧ Follows packOne packAt entry.2)
    {stack : List Slot} {iterators : List Iterator}
    (table : LuaState.slot ⟨stack, iterators⟩ index = some (.value (.table ref)))
    (fuel : Nat) (enough : after.length < fuel) {wb result : WriteBlock}
    (packed : after.foldlM (packEntry packOne arraySize) wb = .ok result) :
    ∃ more, hashLoop heap packAt index arraySize fuel wb ⟨.value key :: stack, iterators⟩ =
      .ok (result, ⟨stack, iterators ++ more⟩) := by
  induction after generalizing before key iterators fuel wb with
  | nil =>
      obtain ⟨fuel, rfl⟩ : ∃ less, fuel = less + 1 := Nat.exists_eq_add_one.mpr enough
      cases packed
      have above : LuaState.slot ⟨.value key :: stack, iterators⟩ index =
          some (.value (.table ref)) := slot_push bottom table [.value key] iterators
      refine ⟨[], ?_⟩
      unfold hashLoop
      rw [bind_of_ok (luaNext_nil above next), List.append_nil]
      rfl
  | cons entry after ih =>
      obtain ⟨fuel, rfl⟩ : ∃ less, fuel = less + 1 :=
        Nat.exists_eq_add_one.mpr (Nat.zero_lt_of_lt enough)
      have above : LuaState.slot ⟨.value key :: stack, iterators⟩ index =
          some (.value (.table ref)) := slot_push bottom table [.value key] iterators
      have second : index2addr (-2) ⟨.value entry.2 :: .value entry.1 :: stack, iterators⟩ =
          .ok (.value entry.1, ⟨.value entry.2 :: .value entry.1 :: stack, iterators⟩) := rfl
      have split' : (heap ref).entries = (before ++ [entry]) ++ after := by
        rw [split, List.append_assoc]
        rfl
      have next' := entriesAfter_of_split split
      have follows' : ∀ other ∈ after,
          Follows packOne packAt other.1 ∧ Follows packOne packAt other.2 :=
        fun other member => follows other (List.mem_cons_of_mem entry member)
      rw [List.foldlM_cons] at packed
      unfold hashLoop
      rw [bind_of_ok (luaNext_cons above next)]
      rw [if_pos rfl, bind_of_ok second]
      by_cases inArray : Slot.inArray arraySize (.value entry.1) = true
      · have skipped : packEntry packOne arraySize wb entry = .ok wb := if_pos inArray
        rw [skipped] at packed
        obtain ⟨more, rest⟩ := ih split' next' follows' table fuel
          (Nat.lt_of_succ_lt_succ enough) packed
        refine ⟨more, ?_⟩
        rw [if_pos inArray, bind_of_ok (luaPop_one _ _ _)]
        exact rest
      · have written : packEntry packOne arraySize wb entry = (do
            let wb ← packOne wb entry.1
            packOne wb entry.2) := if_neg inArray
        cases one : packEntry packOne arraySize wb entry with
        | error message =>
            rw [one] at packed
            exact nomatch packed
        | ok middle =>
            rw [one] at packed written
            obtain ⟨key, value⟩ := follows entry List.mem_cons_self
            obtain ⟨made, round⟩ := packPair_follows key value stack iterators
              (hashLoop heap packAt index arraySize fuel) written.symm
            have grown : LuaState.slot ⟨stack, iterators ++ made⟩ index =
                some (.value (.table ref)) := table
            obtain ⟨more, rest⟩ := ih split' next' follows' grown fuel
              (Nat.lt_of_succ_lt_succ enough) packed
            refine ⟨made ++ more, ?_⟩
            rw [if_neg inArray, round, rest, List.append_assoc]

/-- The raw path of `wb_table`. -/
theorem wbTableRaw_follows (bottom : 0 < index) {state : LuaState}
    (table : state.slot index = some (.value (.table ref)))
    (fields : ∀ j ∈ List.range' 0 (toInt (heap ref).border).toNat,
      Follows packOne packAt ((heap ref).rawgeti (j + 1)))
    (entries : ∀ entry ∈ (heap ref).entries,
      Follows packOne packAt entry.1 ∧ Follows packOne packAt entry.2)
    (fuel : Nat) (enough : (heap ref).entries.length < fuel) {wb after : WriteBlock}
    (packed : (do
      let (wb, arraySize) ← Seri.wbTableArray packOne wb (heap ref)
      Seri.wbTableHash packOne wb (heap ref) arraySize) = .ok after) :
    ∃ more, (do
      let (wb, arraySize) ← wbTableArray heap packAt wb index
      wbTableHash heap packAt fuel wb index arraySize) state = .ok (after, state.grow more) := by
  rw [wbTableArray_eq, List.range_eq_range'] at packed
  cases array : (List.range' 0 (toInt (heap ref).border).toNat).foldlM
      (packField packOne (heap ref)) (arrayHeader wb (toInt (heap ref).border)) with
  | error message =>
      rw [array] at packed
      exact nomatch packed
  | ok middle =>
      rw [array] at packed
      obtain ⟨result, hash, rfl⟩ := of_wbNil packed
      obtain ⟨made, loop⟩ := arrayLoop_follows _ 0 table fields array
      rw [Nat.cast_zero, zero_add] at loop
      have length : luaRawlen heap index state = .ok ((heap ref).border, state) := by
        unfold luaRawlen
        rw [bind_of_ok (tableAt_of_slot table)]
        rfl
      have arrayDone : wbTableArray heap packAt wb index state =
          .ok ((middle, toInt (heap ref).border), state.grow made) := by
        unfold wbTableArray
        rw [bind_of_ok length, bind_of_ok loop]
        rfl
      have grown : LuaState.slot ⟨state.stack, state.iterators ++ made⟩ index =
          some (.value (.table ref)) := table
      obtain ⟨more, rest⟩ := hashLoop_follows bottom (heap ref).entries (List.nil_append _).symm
        (entriesAfter_nil _) entries grown fuel enough hash
      have pushed : luaPushnil (state.grow made) =
          .ok ((), ⟨.value .nil :: state.stack, state.iterators ++ made⟩) := rfl
      refine ⟨made ++ more, ?_⟩
      rw [bind_of_ok arrayDone]
      unfold wbTableHash
      simp only
      rw [bind_of_ok pushed, bind_of_ok rest, ← LuaState.grow_grow]
      rfl

/-- The loop of `wb_table_metapairs`, with the iterator, its state and its control value at the
top of the stack. -/
theorem metapairsLoop_follows (pairs : List (LuaValue × LuaValue))
    (present : ∀ pair ∈ pairs, pair.1 ≠ .nil)
    (follows : ∀ pair ∈ pairs, Follows packOne packAt pair.1 ∧ Follows packOne packAt pair.2)
    (state control : LuaValue) (stack : List Slot) (made after : List Iterator)
    (fuel : Nat) (enough : pairs.length < fuel) {wb result : WriteBlock}
    (packed : pairs.foldlM (fun wb pair => do
      let wb ← packOne wb pair.1
      packOne wb pair.2) wb = .ok result) :
    ∃ more, metapairsLoop heap start packAt fuel wb
        ⟨.value control :: .value state :: .iterator made.length :: stack,
          made ++ ⟨state, control, pairs⟩ :: after⟩ =
      .ok (result, ⟨stack, made ++ more⟩) := by
  induction pairs generalizing control after fuel wb with
  | nil =>
      obtain ⟨fuel, rfl⟩ : ∃ less, fuel = less + 1 := Nat.exists_eq_add_one.mpr enough
      cases packed
      refine ⟨⟨state, control, []⟩ :: after, ?_⟩
      unfold metapairsLoop
      rw [callIterator (invoke_exhausted made after)]
      rfl
  | cons pair pairs ih =>
      obtain ⟨fuel, rfl⟩ : ∃ less, fuel = less + 1 :=
        Nat.exists_eq_add_one.mpr (Nat.zero_lt_of_lt enough)
      rw [List.foldlM_cons] at packed
      cases one : (do
          let wb ← packOne wb pair.1
          packOne wb pair.2) with
      | error message =>
          rw [one] at packed
          exact nomatch packed
      | ok middle =>
          rw [one] at packed
          obtain ⟨key, value⟩ := follows pair List.mem_cons_self
          have second : index2addr (-2) ⟨.value pair.2 :: .value pair.1 :: .value state ::
              .iterator made.length :: stack, made ++ ⟨state, pair.1, pairs⟩ :: after⟩ =
                .ok (.value pair.1, ⟨.value pair.2 :: .value pair.1 :: .value state ::
                  .iterator made.length :: stack, made ++ ⟨state, pair.1, pairs⟩ :: after⟩) := rfl
          have more_ : ¬ Slot.value pair.1 = Slot.value .nil := fun same =>
            present pair List.mem_cons_self (Slot.value.inj same)
          obtain ⟨inner, round⟩ := packPair_follows key value
            (.value state :: .iterator made.length :: stack)
            (made ++ ⟨state, pair.1, pairs⟩ :: after) (metapairsLoop heap start packAt fuel) one
          obtain ⟨more, rest⟩ := ih
            (fun other member => present other (List.mem_cons_of_mem pair member))
            (fun other member => follows other (List.mem_cons_of_mem pair member)) pair.1
            (after ++ inner) fuel (Nat.lt_of_succ_lt_succ enough) packed
          refine ⟨more, ?_⟩
          unfold metapairsLoop
          rw [callIterator (invoke_iterator made after)]
          change (index2addr (-2) >>= _) ⟨.value pair.2 :: .value pair.1 :: .value state ::
            .iterator made.length :: stack, _⟩ = _
          rw [bind_of_ok second, if_neg more_, round, List.append_assoc]
          exact rest

/-- The `__pairs` path of `wb_table`, with the metamethod at the top of the stack. -/
theorem wbTableMetapairs_follows (bottom : 0 < index) {stack : List Slot}
    {iterators : List Iterator} {pairs : List (LuaValue × LuaValue)}
    (table : LuaState.slot ⟨stack, iterators⟩ index = some (.value (.table ref)))
    (isPairs : (heap ref).pairs = some pairs) (present : ∀ pair ∈ pairs, pair.1 ≠ .nil)
    (follows : ∀ pair ∈ pairs, Follows packOne packAt pair.1 ∧ Follows packOne packAt pair.2)
    (fuel : Nat) (enough : pairs.length < fuel) {wb after : WriteBlock}
    (packed : Seri.wbTableMetapairs packOne wb pairs = .ok after) :
    ∃ more, wbTableMetapairs heap start packAt fuel wb index
        ⟨.metapairs ref :: stack, iterators⟩ = .ok (after, ⟨stack, iterators ++ more⟩) := by
  have above : LuaState.slot ⟨.metapairs ref :: stack, iterators⟩ index =
      some (.value (.table ref)) := slot_push bottom table [.metapairs ref] iterators
  have pushed : luaPushvalue index ⟨.metapairs ref :: stack, iterators⟩ =
      .ok ((), ⟨.value (.table ref) :: .metapairs ref :: stack, iterators⟩) := by
    unfold luaPushvalue
    rw [bind_of_ok (index2addr_of_slot above)]
    rfl
  have called : luaCall heap start 1 3 ⟨.value (.table ref) :: .metapairs ref :: stack, iterators⟩ =
      .ok ((), ⟨.value (start ref iterators.length).2 :: .value (start ref iterators.length).1 ::
        .iterator iterators.length :: stack, iterators ++ [⟨(start ref iterators.length).1,
          (start ref iterators.length).2, pairs⟩]⟩) := by
    have invoked : invoke heap start (.metapairs ref) [.value (.table ref)] iterators = _ :=
      invoke_metapairs iterators isPairs
    exact luaCall_run invoked
  obtain ⟨result, loop, rfl⟩ := of_wbNil packed
  obtain ⟨more, rest⟩ := metapairsLoop_follows pairs present follows
    (start ref iterators.length).1 (start ref iterators.length).2 stack iterators [] fuel enough
    loop
  refine ⟨more, ?_⟩
  unfold wbTableMetapairs
  rw [bind_of_ok pushed, bind_of_ok called, bind_of_ok rest]
  rfl

/-- `wb_table` leaves the stack as it was, on either path. -/
theorem wbTable_follows {state : LuaState} {idx : Int}
    (table : state.slot idx = some (.value (.table ref)))
    (raw : (heap ref).pairs = none →
      (∀ j ∈ List.range' 0 (toInt (heap ref).border).toNat,
        Follows packOne packAt ((heap ref).rawgeti (j + 1))) ∧
      ∀ entry ∈ (heap ref).entries, Follows packOne packAt entry.1 ∧ Follows packOne packAt entry.2)
    (metapairs : ∀ pairs, (heap ref).pairs = some pairs → ∀ pair ∈ pairs,
      pair.1 ≠ .nil ∧ Follows packOne packAt pair.1 ∧ Follows packOne packAt pair.2)
    (fuel : Nat) (enough : (heap ref).entries.length < fuel)
    (enoughPairs : ∀ pairs, (heap ref).pairs = some pairs → pairs.length < fuel)
    {wb after : WriteBlock} (packed : Seri.wbTable packOne wb (heap ref) = .ok after) :
    ∃ more, wbTable heap start packAt fuel wb idx state = .ok (after, state.grow more) := by
  obtain ⟨index, isAbsolute, bottom, found⟩ := absolute_slot table
  unfold wbTable
  rw [bind_of_ok isAbsolute]
  unfold Seri.wbTable at packed
  cases isPairs : (heap ref).pairs with
  | none =>
      rw [isPairs] at packed
      have noField : luaLGetmetafield heap index state = .ok (false, state) := by
        unfold luaLGetmetafield
        rw [bind_of_ok (tableAt_of_slot found), isPairs]
        rfl
      obtain ⟨fields, entries⟩ := raw isPairs
      rw [bind_of_ok noField]
      exact wbTableRaw_follows bottom found fields entries fuel enough packed
  | some pairs =>
      rw [isPairs] at packed
      have field : luaLGetmetafield heap index state =
          .ok (true, ⟨.metapairs ref :: state.stack, state.iterators⟩) := by
        unfold luaLGetmetafield
        rw [bind_of_ok (tableAt_of_slot found), isPairs]
        rfl
      have components := metapairs pairs isPairs
      rw [bind_of_ok field]
      exact wbTableMetapairs_follows bottom found isPairs
        (fun pair member => (components pair member).1)
        (fun pair member => (components pair member).2) fuel (enoughPairs pairs isPairs) packed

end Loops

/-- With enough fuel every item of a list follows. -/
theorem exists_enough {α : Type} (good : α → Nat → Prop) (items : List α)
    (each : ∀ item ∈ items, ∃ enough, ∀ fuel, enough ≤ fuel → good item fuel) :
    ∃ enough, ∀ fuel, enough ≤ fuel → ∀ item ∈ items, good item fuel := by
  induction items with
  | nil => exact ⟨0, fun _ _ => nofun⟩
  | cons item items ih =>
      obtain ⟨first, one⟩ := each item List.mem_cons_self
      obtain ⟨rest, others⟩ := ih fun other member => each other (List.mem_cons_of_mem item member)
      refine ⟨max first rest, fun fuel enough other member => ?_⟩
      rcases List.mem_cons.mp member with rfl | later
      · exact one fuel (by omega)
      · exact others fuel (by omega) other later

/-- The packer on the stack follows the one on values with so much fuel. -/
abbrev FollowsWith (heap : Heap) (start : Nat → Nat → LuaValue × LuaValue) (levels fuel : Nat)
    (value : LuaValue) : Prop :=
  Follows (Seri.packOne heap levels) (packOne heap start fuel levels) value

theorem exists_enough_pairs {levels : Nat} (pairs : List (LuaValue × LuaValue))
    (each : ∀ value, Copyable heap levels value →
      ∃ enough, ∀ fuel, enough ≤ fuel → FollowsWith heap start levels fuel value)
    (copyable : ∀ pair ∈ pairs, Copyable heap levels pair.1 ∧ Copyable heap levels pair.2) :
    ∃ enough, ∀ fuel, enough ≤ fuel → ∀ pair ∈ pairs,
      FollowsWith heap start levels fuel pair.1 ∧ FollowsWith heap start levels fuel pair.2 := by
  refine exists_enough (fun pair fuel => FollowsWith heap start levels fuel pair.1 ∧
    FollowsWith heap start levels fuel pair.2) pairs fun pair member => ?_
  obtain ⟨first, key⟩ := each pair.1 (copyable pair member).1
  obtain ⟨second, value⟩ := each pair.2 (copyable pair member).2
  exact ⟨max first second, fun fuel enough => ⟨key fuel (by omega), value fuel (by omega)⟩⟩

/-- `wb_table` on the stack, if what is one level down can be packed there. -/
theorem wbTable_enough {levels ref : Nat}
    (each : ∀ value, Copyable heap levels value →
      ∃ enough, ∀ fuel, enough ≤ fuel → FollowsWith heap start levels fuel value)
    (copyable : Copyable heap (levels + 1) (.table ref)) :
    ∃ enough, ∀ fuel, enough ≤ fuel → ∀ wb after state idx,
      LuaState.slot state idx = some (.value (.table ref)) →
      Seri.wbTable (Seri.packOne heap levels) wb (heap ref) = .ok after →
      ∃ more, wbTable heap start (packOne heap start fuel levels) fuel wb idx state =
        .ok (after, state.grow more) := by
  simp only [Copyable] at copyable
  cases isPairs : (heap ref).pairs with
  | some pairs =>
      simp only [isPairs] at copyable
      obtain ⟨enough, follows⟩ := exists_enough_pairs pairs each fun pair member =>
        (copyable pair member).2
      refine ⟨enough + (heap ref).entries.length + pairs.length + 1, ?_⟩
      intro fuel fits wb after state idx table packed
      refine wbTable_follows table (fun raw => ?_) (fun pairs' same pair member => ?_) fuel
        (by omega) (fun pairs' same => ?_) packed
      · rw [isPairs] at raw
        cases raw
      · rw [isPairs] at same
        cases same
        refine ⟨fun absent => ?_, follows fuel (by omega) pair member⟩
        have isKey := (copyable pair member).1
        rw [absent] at isKey
        exact isKey
      · rw [isPairs] at same
        cases same
        omega
  | none =>
      simp only [isPairs] at copyable
      obtain ⟨enough, follows⟩ := exists_enough_pairs (heap ref).entries each copyable
      obtain ⟨enoughFields, fields⟩ := exists_enough
        (fun (j : Nat) fuel => FollowsWith heap start levels fuel ((heap ref).rawgeti (j + 1)))
        (List.range' 0 (toInt (heap ref).border).toNat) fun j member => by
          refine each _ (Copyable.rawgeti copyable (fun zero => ?_) _)
          rw [zero] at member
          exact absurd member List.not_mem_nil
      refine ⟨enough + enoughFields + (heap ref).entries.length + 1, ?_⟩
      intro fuel fits wb after state idx table packed
      refine wbTable_follows table (fun _ => ⟨?_, ?_⟩) (fun pairs same => ?_) fuel (by omega)
        (fun pairs same => ?_) packed
      · exact fields fuel (by omega)
      · exact follows fuel (by omega)
      · rw [isPairs] at same
        cases same
      · rw [isPairs] at same
        cases same

/-- **Packing a copyable value from the stack** writes what packing the value writes, and
leaves the stack as it was, by induction on the levels. -/
theorem packOne_follows (levels : Nat) (value : LuaValue) (copyable : Copyable heap levels value) :
    ∃ enough, ∀ fuel, enough ≤ fuel → FollowsWith heap start levels fuel value := by
  induction levels generalizing value with
  | zero => exact copyable.elim
  | succ levels ih =>
      cases value with
      | nil =>
          refine ⟨0, fun fuel _ wb after state idx found packed => ⟨[], ?_⟩⟩
          cases packed
          unfold packOne
          rw [bind_of_ok (index2addr_of_slot found), LuaState.grow_nil]
          rfl
      | scalar scalar =>
          refine ⟨0, fun fuel _ wb after state idx found packed => ⟨[], ?_⟩⟩
          unfold packOne
          rw [bind_of_ok (index2addr_of_slot found), LuaState.grow_nil]
          cases scalar <;>
          · cases packed
            rfl
      | unsupported typename ref => exact copyable.elim
      | table ref =>
          obtain ⟨enough, table⟩ := wbTable_enough ih copyable
          refine ⟨enough, fun fuel fits wb after state idx found packed => ?_⟩
          obtain ⟨index, isAbsolute, _, bottom⟩ := absolute_slot found
          obtain ⟨more, packedTable⟩ := table fuel fits wb after state index bottom packed
          refine ⟨more, ?_⟩
          unfold packOne
          rw [bind_of_ok (index2addr_of_slot found)]
          simp only
          rw [bind_of_ok isAbsolute]
          exact packedTable

/-- The arguments of a call are packed from the bottom of the stack to its top. -/
theorem packFrom_follows (values : List LuaValue) (fuel : Nat)
    (follows : ∀ value ∈ values, FollowsWith heap start (MAX_DEPTH + 1) fuel value) (first : Int)
    {state : LuaState}
    (slots : ∀ i (inside : i < values.length),
      state.slot (first + i) = some (.value (values.get ⟨i, inside⟩)))
    {wb after : WriteBlock} (packed : Seri.packFrom heap wb values = .ok after) :
    ∃ more, packFrom heap start fuel values.length first wb state =
      .ok (after, state.grow more) := by
  induction values generalizing first state wb with
  | nil =>
      cases packed
      exact ⟨[], by rw [LuaState.grow_nil]; rfl⟩
  | cons value values ih =>
      unfold Seri.packFrom at packed
      rw [List.foldlM_cons] at packed
      cases one : Seri.packOne heap (MAX_DEPTH + 1) wb value with
      | error message =>
          rw [one] at packed
          exact nomatch packed
      | ok middle =>
          rw [one] at packed
          have bottom : state.slot first = some (.value value) := by
            have slot := slots 0 (Nat.zero_lt_succ _)
            rw [Nat.cast_zero, add_zero] at slot
            exact slot
          obtain ⟨made, packedOne⟩ :=
            follows value List.mem_cons_self wb middle state first bottom one
          have slots' : ∀ i (inside : i < values.length),
              (state.grow made).slot (first + 1 + i) = some (.value (values.get ⟨i, inside⟩)) := by
            intro i inside
            have slot := slots (i + 1) (Nat.succ_lt_succ inside)
            rw [show first + 1 + (i : Int) = first + ((i + 1 : Nat) : Int) by omega]
            exact slot
          obtain ⟨more, rest⟩ := ih
            (fun other member => follows other (List.mem_cons_of_mem value member)) (first + 1)
            slots' packed
          refine ⟨made ++ more, ?_⟩
          change (packOne heap start fuel (MAX_DEPTH + 1) wb first >>= _) state = _
          rw [bind_of_ok packedOne, ← LuaState.grow_grow]
          exact rest

/-- **`luaseri_pack` from the stack**: for copyable arguments it returns what packing the
values returns, and they are still all that is on the stack. -/
theorem luaseriPack_follows (values : List LuaValue)
    (copyable : ∀ value ∈ values, Copyable heap (MAX_DEPTH + 1) value) {buffer : Bytes × Int}
    (packed : Seri.luaseriPack heap values = .ok buffer) :
    ∃ enough, ∀ fuel, enough ≤ fuel → ∀ iterators, ∃ more,
      luaseriPack heap start fuel ⟨(values.map Slot.value).reverse, iterators⟩ =
        .ok (buffer, ⟨(values.map Slot.value).reverse, iterators ++ more⟩) := by
  obtain ⟨enough, follows⟩ := exists_enough
    (fun value fuel => FollowsWith heap start (MAX_DEPTH + 1) fuel value) values
    fun value member => packOne_follows (MAX_DEPTH + 1) value (copyable value member)
  refine ⟨enough, fun fuel fits iterators => ?_⟩
  unfold Seri.luaseriPack at packed
  cases written : Seri.packFrom heap .init values with
  | error message =>
      rw [written] at packed
      exact nomatch packed
  | ok wb =>
      rw [written] at packed
      cases packed
      have slots : ∀ i (inside : i < values.length),
          LuaState.slot ⟨(values.map Slot.value).reverse, iterators⟩ (1 + i) =
            some (.value (values.get ⟨i, inside⟩)) := by
        intro i inside
        unfold LuaState.slot
        rw [if_neg (by omega), if_pos (by omega)]
        simp [inside]
      obtain ⟨more, rest⟩ := packFrom_follows values fuel (follows fuel fits) 1 slots written
      refine ⟨more, ?_⟩
      have top : luaGettop ⟨(values.map Slot.value).reverse, iterators⟩ =
          .ok ((values.length : Int), ⟨(values.map Slot.value).reverse, iterators⟩) := by
        unfold luaGettop
        simp
      unfold luaseriPack
      rw [bind_of_ok top, Int.toNat_natCast, bind_of_ok rest]
      rfl

end EasyLua.Seri.OnStack
