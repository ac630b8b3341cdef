import EasyLua.Foundation.Leases

/-!
# Watchers and their callbacks

`cHandleInfo`, `common_handle_cb` and `handle_close_cb` of `handle.cpp`, and what `timer.cpp`,
`poll.cpp`, `idle.cpp`, `prepare.cpp` and `async.cpp` do with the registry. Which slot
`luaL_ref` returns and what libuv returns is given to every operation.
-/

namespace EasyLua

namespace Handle

variable (Watcher Callback : Type)

/-- The classes of the watchers. -/
inductive Kind
  | timer
  | poll
  | idle
  | prepare
  | async
  deriving DecidableEq

/-- How far a watcher has come. -/
inductive Stage
  | constructed
  /-- `__init__` has returned. -/
  | initialized
  /-- `__gc` has dropped the `shared_ptr` of the userdata. -/
  | collected
  /-- The deleter has called `uv_close`. -/
  | closing
  /-- `handle_close_cb` has deleted the `cHandleInfo`. -/
  | closed
  deriving DecidableEq

/-- A `uv_handle_t` with the `cHandleInfo` of its `data`. -/
structure Info where
  kind : Kind
  stage : Stage
  callback_handle : Int

/-- The Lua values that the callbacks touch; a nil is `none`. -/
inductive Value
  | callback (function : Callback)
  /-- The table of the message queue. -/
  | table
  | integer (n : Nat)
  | other

/-- An argument of a script. -/
inductive Argument
  | func (function : Callback)
  | nil
  | other

/-- The watchers of one loop, the registry, the entries of the message queue, the stack of
the loop's coroutine with its top first, and the watchers' `luaL_ref`s and `luaL_unref`s. -/
structure World where
  handle : Watcher → Option Info
  registry : Int → Option (Value Callback)
  msg_queue_handle : Int
  queue : List (Value Callback)
  stack : List (Option (Value Callback))
  calls : List (Lease.Call Int Watcher)

/-- Why an operation does not return. -/
inductive Failure
  | argument (arg : Nat) (message : String)
  /-- There is no such watcher, or the slot of `luaL_ref` was in use. -/
  | undefined

def LUA_NOREF : Int := -2

variable {Watcher Callback}

def Argument.isFunction : Argument Callback → Bool
  | .func _ => true
  | .nil => false
  | .other => false

def Argument.isNil : Argument Callback → Bool
  | .func _ => false
  | .nil => true
  | .other => false

/-- The function of an argument. -/
def Argument.toFunction : Argument Callback → Option Callback
  | .func function => some function
  | .nil => none
  | .other => none

namespace World

variable (world : World Watcher Callback)

/-! ## The event callbacks -/

/-- `lua_rawgeti(coroutine, LUA_REGISTRYINDEX, slot)`. -/
def rawgeti (slot : Int) : World Watcher Callback :=
  { world with stack := world.registry slot :: world.stack }

/-- `lua_rawlen(coroutine, -1)`. -/
def rawlen : Nat :=
  match world.stack with
  | some .table :: _ => world.queue.length
  | _ => 0

/-- `lua_pushinteger`. -/
def pushinteger (n : Nat) : World Watcher Callback :=
  { world with stack := some (.integer n) :: world.stack }

/-- `lua_settable(coroutine, -3)` on the queue, behind its last entry. -/
def settable : Option (World Watcher Callback) :=
  match world.stack with
  | value :: some (.integer key) :: some .table :: rest =>
      if key = world.queue.length + 1 then
        some { world with
          queue := world.queue ++ value.toList
          stack := some .table :: rest }
      else none
  | _ => none

/-- `lua_pop`. -/
def pop (n : Nat) : World Watcher Callback := { world with stack := world.stack.drop n }

/-- `common_handle_cb`. -/
def common_handle_cb (data : Info) : Option (World Watcher Callback) :=
  let callback_handle := data.callback_handle
  if LUA_NOREF = callback_handle then some world
  else
    let top := world.stack.length
    let world := world.rawgeti world.msg_queue_handle
    let len := world.rawlen
    let world := world.pushinteger (len + 1)
    let world := world.rawgeti callback_handle
    match world.settable with
    | some world =>
        let add := world.stack.length - top
        some (world.pop add)
    | none => none

/-- `uv_poll_cb_`. -/
def uv_poll_cb_ (data : Info) : Option (World Watcher Callback) := world.common_handle_cb data

/-- The callback that was registered with libuv. -/
def uv_cb (data : Info) : Option (World Watcher Callback) :=
  match data.kind with
  | .poll => world.uv_poll_cb_ data
  | _ => world.common_handle_cb data

/-! ## The registry -/

variable [DecidableEq Watcher]

/-- The watcher's new state. -/
def put (watcher : Watcher) (data : Info) : World Watcher Callback :=
  { world with handle := Function.update world.handle watcher (some data) }

/-- `luaL_ref(L, LUA_REGISTRYINDEX)`, which returns a slot that is not in use. -/
def luaL_ref (watcher : Watcher) (function : Callback) (slot : Int) :
    Option (World Watcher Callback) :=
  if (world.registry slot).isNone ∧ slot ≠ LUA_NOREF then
    some { world with
      registry := Function.update world.registry slot (some (.callback function))
      calls := .take slot watcher :: world.calls }
  else none

/-- `luaL_unref(L, LUA_REGISTRYINDEX, slot)`. -/
def luaL_unref (slot : Int) : World Watcher Callback :=
  { world with
    registry := Function.update world.registry slot none
    calls := .release slot :: world.calls }

/-- `if (info->callback_handle != LUA_NOREF)`, the block before every new callback, in `stop`
and in `handle_close_cb`. -/
def unrefCallback (watcher : Watcher) (info : Info) : World Watcher Callback :=
  if info.callback_handle ≠ LUA_NOREF then
    (world.luaL_unref info.callback_handle).put watcher
      { info with callback_handle := LUA_NOREF }
  else world

/-- `luaL_ref` and `info->setInfo`. -/
def refCallback (watcher : Watcher) (info : Info) (function : Callback) (slot : Int) :
    Option (World Watcher Callback) :=
  (world.luaL_ref watcher function slot).map fun world =>
    world.put watcher { info with callback_handle := slot }

/-- A `start`, with what its class accepts as a callback. -/
def startWith (accepts : Argument Callback → Bool) (watcher : Watcher) (info : Info)
    (CALL_BACK : Argument Callback) (slot ret : Int) :
    Except Failure (Bool × World Watcher Callback) :=
  if accepts CALL_BACK then
    let world := world.unrefCallback watcher info
    match CALL_BACK.toFunction with
    | some function =>
        match world.refCallback watcher info function slot with
        | some world => .ok (ret = 0, world)
        | none => .error .undefined
    | none => .ok (ret = 0, world)
  else .error (.argument 2 "invalid function")

/-- `start` of `timer.cpp`: a nil is accepted. -/
def timerStart : Watcher → Info → Argument Callback → Int → Int →
    Except Failure (Bool × World Watcher Callback) :=
  world.startWith fun CALL_BACK => CALL_BACK.isFunction || CALL_BACK.isNil

/-- `start` of `poll.cpp`. -/
def pollStart : Watcher → Info → Argument Callback → Int → Int →
    Except Failure (Bool × World Watcher Callback) :=
  world.startWith Argument.isFunction

/-- `start` of `idle.cpp`. -/
def idleStart : Watcher → Info → Argument Callback → Int → Int →
    Except Failure (Bool × World Watcher Callback) :=
  world.startWith Argument.isFunction

/-- `start` of `prepare.cpp`. -/
def prepareStart : Watcher → Info → Argument Callback → Int → Int →
    Except Failure (Bool × World Watcher Callback) :=
  world.startWith Argument.isFunction

/-- The `start` of a class; an async has none. -/
def start (watcher : Watcher) (info : Info) (CALL_BACK : Argument Callback) (slot ret : Int) :
    Except Failure (Bool × World Watcher Callback) :=
  match info.kind with
  | .timer => world.timerStart watcher info CALL_BACK slot ret
  | .poll => world.pollStart watcher info CALL_BACK slot ret
  | .idle => world.idleStart watcher info CALL_BACK slot ret
  | .prepare => world.prepareStart watcher info CALL_BACK slot ret
  | .async => .error .undefined

/-- `stop`, the same in every class that has one. -/
def stop (watcher : Watcher) (info : Info) (ret : Int) :
    Except Failure (Bool × World Watcher Callback) :=
  if info.kind = .async then .error .undefined
  else .ok (ret = 0, world.unrefCallback watcher info)

/-- `__init__` of `timer.cpp`, `poll.cpp`, `idle.cpp` and `prepare.cpp`, when libuv returns 0. -/
def init (watcher : Watcher) (info : Info) : Except Failure (World Watcher Callback) :=
  if info.kind = .async then .error .undefined
  else .ok (world.put watcher { info with stage := .initialized })

/-- `__init__` of `async.cpp`, when libuv returns 0. -/
def asyncInit (watcher : Watcher) (info : Info) (CALL_BACK : Argument Callback) (slot : Int) :
    Except Failure (World Watcher Callback) :=
  if info.kind = .async then
    match CALL_BACK.toFunction with
    | some function =>
        let world := world.unrefCallback watcher info
        match world.refCallback watcher { info with stage := .initialized } function slot with
        | some world => .ok world
        | none => .error .undefined
    | none => .error (.argument 3 "invalid function")
  else .error .undefined

/-- `handle_close_cb`. -/
def handle_close_cb (watcher : Watcher) (info : Info) : World Watcher Callback :=
  (world.unrefCallback watcher info).put watcher
    { info with callback_handle := LUA_NOREF, stage := .closed }

end World

end Handle

end EasyLua
