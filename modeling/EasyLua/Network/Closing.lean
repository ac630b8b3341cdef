import EasyLua.Foundation.Machine
import EasyLua.Foundation.Sharing
import EasyLua.Network.Handle

/-!
# Construction and closing of the watchers

A watcher is allocated by `__new__`, initialized by `__init__` and released by `__gc`. The
deleter of its `shared_ptr`, which `__new__` installs, calls `uv_close`; an async is also owned
by the context that was constructed with it. `__init__` can be called any number of times and
can fail in its checks or in libuv, and what it returns then has no influence on `__gc`.
-/

namespace EasyLua

namespace Closing

open Handle (Kind LUA_NOREF)

variable (Watcher Context : Type)

/-- Who has a `shared_ptr` of a watcher. -/
inductive Owner
  | userdata
  /-- `asyncWatcher_` of a `cVmContext`. -/
  | context (context : Context)
  deriving DecidableEq

/-- A `uv_handle_t` with the `cHandleInfo` of its `data`. -/
structure Object where
  kind : Kind
  callback_handle : Int

/-- A call of libuv on a watcher, or one on the registry. -/
inductive Call
  | uv_init (watcher : Watcher) (ret : Int)
  | uv_close (watcher : Watcher)
  | luaL_ref (slot : Int)
  | luaL_unref (slot : Int)
  deriving DecidableEq

/-- The watchers, who owns them, and the calls, the latest first. -/
structure World where
  object : Watcher → Option Object
  shared_ptr : Sharing.Pool Watcher (Owner Context)
  calls : List (Call Watcher)

/-- The argument `SELF`. -/
inductive Self
  | watcher (watcher : Watcher)
  | otherUserdata
  | other

/-- Another argument of `__init__`. -/
inductive Argument
  | userdata
  | func
  | other

/-- Why `__init__` raises an error. -/
inductive Failure
  | argument (arg : Nat) (message : String)
  /-- The error of `checkInstance`. -/
  | notInstance
  | error (message : String)

/-- One step. -/
inductive Event
  /-- `__new__` of a class. -/
  | new (watcher : Watcher) (kind : Kind)
  /-- `__init__` of a class, with what the `uv_*_init` returns and the slot of `luaL_ref`. -/
  | init (kind : Kind) (self : Self Watcher) (LOOP_INSTANCE CALL_BACK : Argument) (ret slot : Int)
  /-- A context is constructed with an async. -/
  | share (watcher : Watcher) (context : Context)
  /-- The context is destroyed. -/
  | release (watcher : Watcher) (context : Context)
  | gc (watcher : Watcher)

def Argument.isUserdata : Argument → Bool
  | .userdata => true
  | .func => false
  | .other => false

def Argument.isFunction : Argument → Bool
  | .userdata => false
  | .func => true
  | .other => false

variable {Watcher Context}

/-- `lua_touserdata(L, SELF)` is not null. -/
def Self.isUserdata : Self Watcher → Bool
  | .watcher _ => true
  | .otherUserdata => true
  | .other => false

namespace World

variable (world : World Watcher Context)

/-- A call of libuv or on the registry. -/
def record (call : Call Watcher) : World Watcher Context :=
  { world with calls := call :: world.calls }

/-- The class of a watcher. -/
def kind (watcher : Watcher) : Option Kind := (world.object watcher).map Object.kind

/-- The script has the userdata of the watcher. -/
def held [DecidableEq Context] (watcher : Watcher) : Bool :=
  match world.shared_ptr.owners watcher with
  | some owners => decide (Owner.userdata ∈ owners)
  | none => false

/-- `checkInstance(L, SELF, THIS_CLASS)` for the class of a kind. -/
def checkInstance (kind : Kind) : Self Watcher → Option (Watcher × Object)
  | .watcher watcher =>
      match world.object watcher with
      | some object => if object.kind = kind then some (watcher, object) else none
      | none => none
  | .otherUserdata => none
  | .other => none

/-- `__init__` of `timer.cpp`, `poll.cpp`, `idle.cpp` and `prepare.cpp`: the messages are those
of the class. -/
def initWith (invalid failed : String) (kind : Kind) (self : Self Watcher)
    (LOOP_INSTANCE : Argument) (ret : Int) : Except Failure Unit × World Watcher Context :=
  if self.isUserdata then
    if LOOP_INSTANCE.isUserdata then
      match world.checkInstance kind self with
      | some (watcher, _) =>
          let world := world.record (.uv_init watcher ret)
          if ret ≠ 0 then (.error (.error failed), world) else (.ok (), world)
      | none => (.error .notInstance, world)
    else (.error (.argument 2 "invalid loop"), world)
  else (.error (.argument 1 invalid), world)

/-- `__init__` of `timer.cpp`. -/
def timerInit : Self Watcher → Argument → Int → Except Failure Unit × World Watcher Context :=
  world.initWith "invalid timer" "cTimer的__init__失败" .timer

/-- `__init__` of `poll.cpp`: the conversion of `FD` does not fail. -/
def pollInit : Self Watcher → Argument → Int → Except Failure Unit × World Watcher Context :=
  world.initWith "invalid poll" "cPoll的__init__失败" .poll

/-- `__init__` of `idle.cpp`. -/
def idleInit : Self Watcher → Argument → Int → Except Failure Unit × World Watcher Context :=
  world.initWith "invalid idle" "cIdle的__init__失败" .idle

/-- `__init__` of `prepare.cpp`. -/
def prepareInit : Self Watcher → Argument → Int → Except Failure Unit × World Watcher Context :=
  world.initWith "invalid prepare" "cPrepare的__init__失败" .prepare

section Identity

variable [DecidableEq Watcher]

def put (watcher : Watcher) (object : Object) : World Watcher Context :=
  { world with object := Function.update world.object watcher (some object) }

/-- `if (info->callback_handle != LUA_NOREF)`. -/
def unrefCallback (watcher : Watcher) (object : Object) : World Watcher Context :=
  if object.callback_handle ≠ LUA_NOREF then
    (world.record (.luaL_unref object.callback_handle)).put watcher
      { object with callback_handle := LUA_NOREF }
  else world

/-- `__init__` of `async.cpp`, which checks its function too and gives it to the registry after
the call of libuv. -/
def asyncInit (self : Self Watcher) (LOOP_INSTANCE CALL_BACK : Argument) (ret slot : Int) :
    Except Failure Unit × World Watcher Context :=
  if self.isUserdata then
    if LOOP_INSTANCE.isUserdata then
      if CALL_BACK.isFunction then
        match world.checkInstance .async self with
        | some (watcher, object) =>
            let world := world.unrefCallback watcher object
            let world := world.record (.uv_init watcher ret)
            if ret ≠ 0 then (.error (.error "cAsync的__init__失败"), world)
            else
              let world := world.record (.luaL_ref slot)
              (.ok (), world.put watcher { object with callback_handle := slot })
        | none => (.error .notInstance, world)
      else (.error (.argument 3 "invalid function"), world)
    else (.error (.argument 2 "invalid loop"), world)
  else (.error (.argument 1 "invalid async"), world)

/-- The `__init__` of a class. -/
def init (kind : Kind) (self : Self Watcher) (LOOP_INSTANCE CALL_BACK : Argument)
    (ret slot : Int) : Except Failure Unit × World Watcher Context :=
  match kind with
  | .timer => world.timerInit self LOOP_INSTANCE ret
  | .poll => world.pollInit self LOOP_INSTANCE ret
  | .idle => world.idleInit self LOOP_INSTANCE ret
  | .prepare => world.prepareInit self LOOP_INSTANCE ret
  | .async => world.asyncInit self LOOP_INSTANCE CALL_BACK ret slot

/-- `new std::shared_ptr<uv_timer_t>(new uv_timer_t, deleter)` and the same in the other
classes. -/
def new (watcher : Watcher) (kind : Kind) : Option (World Watcher Context) :=
  (world.shared_ptr.make watcher .userdata).map fun shared_ptr =>
    { world.put watcher { kind, callback_handle := LUA_NOREF } with shared_ptr }

variable [DecidableEq Context]

/-- `deleter`. -/
def deleter (watcher : Watcher) : World Watcher Context := world.record (.uv_close watcher)

/-- A `shared_ptr` is destroyed. -/
def drop (watcher : Watcher) (owner : Owner Context) : Option (World Watcher Context) :=
  match world.shared_ptr.leave watcher owner with
  | some (shared_ptr, true) => some (World.deleter { world with shared_ptr } watcher)
  | some (shared_ptr, false) => some { world with shared_ptr }
  | none => none

end Identity

end World

variable [DecidableEq Watcher] [DecidableEq Context]

/-- One step; no result when it is not enabled. A script that calls `__init__` has the userdata
and goes on after an error. A second `__gc` would delete a `shared_ptr` twice. -/
def step (world : World Watcher Context) : Event Watcher Context → Option (World Watcher Context)
  | .new watcher kind => world.new watcher kind
  | .init kind self LOOP_INSTANCE CALL_BACK ret slot =>
      match self with
      | .watcher watcher =>
          if world.held watcher then
            some (world.init kind (.watcher watcher) LOOP_INSTANCE CALL_BACK ret slot).2
          else none
      | .otherUserdata =>
          some (world.init kind .otherUserdata LOOP_INSTANCE CALL_BACK ret slot).2
      | .other => some (world.init kind .other LOOP_INSTANCE CALL_BACK ret slot).2
  | .share watcher context =>
      match world.object watcher with
      | some object =>
          if object.kind = .async ∧ world.held watcher then
            (world.shared_ptr.join watcher (.context context)).map fun shared_ptr =>
              { world with shared_ptr }
          else none
      | none => none
  | .release watcher context => world.drop watcher (.context context)
  | .gc watcher => world.drop watcher .userdata

/-- The histories of all watchers. -/
def machine (Watcher Context : Type) [DecidableEq Watcher] [DecidableEq Context] :
    Machine (World Watcher Context) (Event Watcher Context) where
  init := { object := fun _ => none, shared_ptr := .empty, calls := [] }
  step := step

/-- `uv_close` is only called on a watcher whose `uv_*_init` has succeeded, and only once. -/
def Proper : List (Call Watcher) → Prop
  | [] => True
  | .uv_close watcher :: earlier =>
      .uv_init watcher 0 ∈ earlier ∧ .uv_close watcher ∉ earlier ∧ Proper earlier
  | .uv_init _ _ :: earlier => Proper earlier
  | .luaL_ref _ :: earlier => Proper earlier
  | .luaL_unref _ :: earlier => Proper earlier

/-- A call of the `__init__` of a class with arguments that pass its checks, which libuv
accepts. -/
def Event.Initializes (watcher : Watcher) (kind : Kind) (event : Event Watcher Context) : Prop :=
  ∃ LOOP_INSTANCE CALL_BACK slot,
    event = .init kind (.watcher watcher) LOOP_INSTANCE CALL_BACK 0 slot ∧
    LOOP_INSTANCE.isUserdata = true ∧ (kind = .async → CALL_BACK.isFunction = true)

/-- The `__init__` of its class has initialized a watcher. -/
def Initialized (events : List (Event Watcher Context)) (watcher : Watcher) : Prop :=
  ∃ kind, .new watcher kind ∈ events ∧ ∃ event ∈ events, event.Initializes watcher kind

/-- The owner of a `shared_ptr` that an event destroys. -/
def Event.drops : Event Watcher Context → Option (Watcher × Owner Context)
  | .new _ _ => none
  | .init _ _ _ _ _ _ => none
  | .share _ _ => none
  | .release watcher context => some (watcher, .context context)
  | .gc watcher => some (watcher, .userdata)

/-- Who drops the last reference to a watcher does so after it was initialized. -/
def InitializedFirst (events : List (Event Watcher Context)) (world : World Watcher Context)
    (event : Event Watcher Context) : Prop :=
  ∀ watcher owner, event.drops = some (watcher, owner) →
    world.shared_ptr.owners watcher = some [owner] → Initialized events watcher

/-! ## What the operations add to the calls -/

/-- The watchers that were closed, the latest first. -/
def closes : List (Call Watcher) → List Watcher
  | [] => []
  | .uv_close watcher :: earlier => watcher :: closes earlier
  | .uv_init _ _ :: earlier => closes earlier
  | .luaL_ref _ :: earlier => closes earlier
  | .luaL_unref _ :: earlier => closes earlier

omit [DecidableEq Watcher] in
theorem mem_closes (watcher : Watcher) :
    ∀ calls : List (Call Watcher), watcher ∈ closes calls ↔ .uv_close watcher ∈ calls
  | [] => by simp [closes]
  | .uv_close other :: earlier => by simp [closes, mem_closes watcher earlier]
  | .uv_init _ _ :: earlier => by simp [closes, mem_closes watcher earlier]
  | .luaL_ref _ :: earlier => by simp [closes, mem_closes watcher earlier]
  | .luaL_unref _ :: earlier => by simp [closes, mem_closes watcher earlier]

variable {world next last : World Watcher Context} {watcher : Watcher}

omit [DecidableEq Watcher] in
/-- What only `uv_close` affects is not affected by other calls in front. -/
theorem append_unaffected {Result : Sort*} (result : List (Call Watcher) → Result)
    (other : ∀ call calls, (∀ watcher, call ≠ .uv_close watcher) →
      result (call :: calls) = result calls)
    {added : List (Call Watcher)} (calls : List (Call Watcher))
    (quiet : ∀ watcher, .uv_close watcher ∉ added) : result (added ++ calls) = result calls := by
  induction added with
  | nil => rfl
  | cons call rest ih =>
      have first : ∀ watcher, call ≠ .uv_close watcher := by
        rintro watcher rfl
        exact quiet watcher List.mem_cons_self
      rw [List.cons_append, other call (rest ++ calls) first]
      exact ih fun watcher member => quiet watcher (List.mem_cons_of_mem _ member)

omit [DecidableEq Watcher] in
theorem closes_append {added : List (Call Watcher)} (calls : List (Call Watcher))
    (quiet : ∀ watcher, .uv_close watcher ∉ added) : closes (added ++ calls) = closes calls := by
  refine append_unaffected closes (fun call calls other => ?_) calls quiet
  cases call with
  | uv_close watcher => exact absurd rfl (other watcher)
  | uv_init watcher ret => rfl
  | luaL_ref slot => rfl
  | luaL_unref slot => rfl

omit [DecidableEq Watcher] in
theorem proper_append {added : List (Call Watcher)} (calls : List (Call Watcher))
    (quiet : ∀ watcher, .uv_close watcher ∉ added) : Proper (added ++ calls) ↔ Proper calls := by
  refine iff_of_eq (append_unaffected Proper (fun call calls other => ?_) calls quiet)
  cases call with
  | uv_close watcher => exact absurd rfl (other watcher)
  | uv_init watcher ret => rfl
  | luaL_ref slot => rfl
  | luaL_unref slot => rfl

/-- From one world to the next nothing is closed, no owner changes, and exactly the watchers with
a property are initialized. -/
structure Adds (world next : World Watcher Context) (initialized : Watcher → Prop) : Prop where
  shared_ptr : next.shared_ptr = world.shared_ptr
  kind : ∀ watcher, next.kind watcher = world.kind watcher
  calls : ∃ added, next.calls = added ++ world.calls ∧
    (∀ watcher, .uv_close watcher ∉ added) ∧
    ∀ watcher, .uv_init watcher 0 ∈ added ↔ initialized watcher

variable {initialized later : Watcher → Prop}

omit [DecidableEq Watcher] [DecidableEq Context] in
theorem Adds.nothing (world : World Watcher Context) : Adds world world fun _ => False where
  shared_ptr := rfl
  kind := fun _ => rfl
  calls := ⟨[], rfl, by simp, by simp⟩

omit [DecidableEq Watcher] [DecidableEq Context] in
theorem Adds.record (world : World Watcher Context) (call : Call Watcher)
    (quiet : ∀ watcher, call ≠ .uv_close watcher) :
    Adds world (world.record call) fun watcher => call = .uv_init watcher 0 where
  shared_ptr := rfl
  kind := fun _ => rfl
  calls := by
    refine ⟨[call], rfl, ?_, ?_⟩
    · intro watcher member
      exact quiet watcher (List.mem_singleton.mp member).symm
    · intro watcher
      rw [List.mem_singleton]
      exact eq_comm

omit [DecidableEq Watcher] [DecidableEq Context] in
theorem Adds.trans (first : Adds world next initialized) (second : Adds next last later) :
    Adds world last fun watcher => initialized watcher ∨ later watcher where
  shared_ptr := second.shared_ptr.trans first.shared_ptr
  kind := fun watcher => (second.kind watcher).trans (first.kind watcher)
  calls := by
    obtain ⟨before, firstCalls, firstQuiet, firstInit⟩ := first.calls
    obtain ⟨after, secondCalls, secondQuiet, secondInit⟩ := second.calls
    refine ⟨after ++ before, ?_, ?_, ?_⟩
    · rw [secondCalls, firstCalls, List.append_assoc]
    · intro watcher member
      rcases List.mem_append.mp member with new | old
      · exact secondQuiet watcher new
      · exact firstQuiet watcher old
    · intro watcher
      rw [List.mem_append, firstInit, secondInit, or_comm]

omit [DecidableEq Watcher] [DecidableEq Context] in
theorem Adds.congr (adds : Adds world next initialized)
    (same : ∀ watcher, initialized watcher ↔ later watcher) : Adds world next later where
  shared_ptr := adds.shared_ptr
  kind := adds.kind
  calls := by
    obtain ⟨added, calls, quiet, init⟩ := adds.calls
    exact ⟨added, calls, quiet, fun watcher => (init watcher).trans (same watcher)⟩

omit [DecidableEq Context] in
/-- A watcher keeps its class when its `cHandleInfo` changes. -/
theorem Adds.put (object : Object) (same : world.kind watcher = some object.kind) :
    Adds world (world.put watcher object) fun _ => False where
  shared_ptr := rfl
  kind := by
    intro other
    by_cases here : other = watcher
    · subst here
      rw [same]
      simp [World.kind, World.put]
    · simp [World.kind, World.put, here]
  calls := ⟨[], rfl, by simp, by simp⟩

omit [DecidableEq Context] in
theorem Adds.unrefCallback {object : Object} (same : world.kind watcher = some object.kind) :
    Adds world (world.unrefCallback watcher object) fun _ => False := by
  unfold World.unrefCallback
  split
  · have unref := Adds.record world (.luaL_unref object.callback_handle) (by simp)
    have kept : (world.record (.luaL_unref object.callback_handle)).kind watcher =
        some object.kind := same
    have put := Adds.put { object with callback_handle := LUA_NOREF } kept
    apply (unref.trans put).congr
    simp
  · exact Adds.nothing world

omit [DecidableEq Watcher] [DecidableEq Context] in
theorem checkInstance_eq_some {kind : Kind} {self : Self Watcher} {object : Object}
    (checked : world.checkInstance kind self = some (watcher, object)) :
    self = .watcher watcher ∧ object.kind = kind ∧ world.kind watcher = some kind := by
  cases self with
  | watcher other =>
      simp only [World.checkInstance] at checked
      split at checked
      · next found =>
          split at checked
          · next same =>
              cases checked
              exact ⟨rfl, same, by simp [World.kind, found, same]⟩
          · cases checked
      · cases checked
  | otherUserdata => cases checked
  | other => cases checked

/-- The watcher that a call of an `__init__` initializes. -/
structure Accepts (world : World Watcher Context) (kind : Kind) (SELF : Self Watcher)
    (LOOP_INSTANCE CALL_BACK : Argument) (ret : Int) (watcher : Watcher) : Prop where
  accepted : ret = 0
  isSelf : SELF = .watcher watcher
  isKind : world.kind watcher = some kind
  isLoop : LOOP_INSTANCE.isUserdata = true
  isCallback : kind = .async → CALL_BACK.isFunction = true

section Init

variable {kind : Kind} {self : Self Watcher} {LOOP_INSTANCE CALL_BACK : Argument} {ret : Int}

omit [DecidableEq Watcher] [DecidableEq Context] in
/-- An `__init__` that fails in a check does nothing. -/
theorem Adds.rejected
    (rejected : ∀ watcher, ¬ Accepts world kind self LOOP_INSTANCE CALL_BACK ret watcher) :
    Adds world world (Accepts world kind self LOOP_INSTANCE CALL_BACK ret) := by
  apply (Adds.nothing world).congr
  exact fun watcher => ⟨False.elim, rejected watcher⟩

omit [DecidableEq Watcher] [DecidableEq Context] in
theorem Accepts.isUserdata (accepts : Accepts world kind self LOOP_INSTANCE CALL_BACK ret watcher) :
    self.isUserdata = true := by
  rw [accepts.isSelf]
  rfl

omit [DecidableEq Watcher] [DecidableEq Context] in
/-- `checkInstance` lets the watchers of the class pass. -/
theorem Accepts.checked (accepts : Accepts world kind self LOOP_INSTANCE CALL_BACK ret watcher) :
    world.checkInstance kind self ≠ none := by
  rw [accepts.isSelf]
  obtain ⟨object, found, same⟩ := Option.map_eq_some_iff.mp accepts.isKind
  simp [World.checkInstance, found, same]

omit [DecidableEq Watcher] [DecidableEq Context] in
/-- An `__init__` that passes its checks initializes its watcher when libuv returns 0. -/
theorem accepts_iff {object : Object}
    (checked : world.checkInstance kind self = some (watcher, object))
    (loop : LOOP_INSTANCE.isUserdata = true)
    (callback : kind = .async → CALL_BACK.isFunction = true) (other : Watcher) :
    Call.uv_init watcher ret = .uv_init other 0 ↔
      Accepts world kind self LOOP_INSTANCE CALL_BACK ret other := by
  obtain ⟨same, _, isKind⟩ := checkInstance_eq_some checked
  constructor
  · intro call
    cases call
    exact ⟨rfl, same, isKind, loop, callback⟩
  · intro accepts
    cases same.symm.trans accepts.isSelf
    rw [accepts.accepted]

omit [DecidableEq Watcher] [DecidableEq Context] in
theorem initWith_adds (world : World Watcher Context) (invalid failed : String)
    (notAsync : kind ≠ .async) (self : Self Watcher) (LOOP_INSTANCE CALL_BACK : Argument)
    (ret : Int) : Adds world (world.initWith invalid failed kind self LOOP_INSTANCE ret).2
      (Accepts world kind self LOOP_INSTANCE CALL_BACK ret) := by
  unfold World.initWith
  by_cases userdata : self.isUserdata = true
  · rw [if_pos userdata]
    by_cases loop : LOOP_INSTANCE.isUserdata = true
    · rw [if_pos loop]
      cases checked : world.checkInstance kind self with
      | none => exact Adds.rejected fun _ accepts => accepts.checked checked
      | some found =>
          obtain ⟨watcher, object⟩ := found
          have adds : Adds world (world.record (.uv_init watcher ret))
              (Accepts world kind self LOOP_INSTANCE CALL_BACK ret) := by
            apply (Adds.record world (.uv_init watcher ret) (by simp)).congr
            exact accepts_iff checked loop fun async => absurd async notAsync
          dsimp only
          split
          · exact adds
          · exact adds
    · rw [if_neg loop]
      exact Adds.rejected fun _ accepts => loop accepts.isLoop
  · rw [if_neg userdata]
    exact Adds.rejected fun _ accepts => userdata accepts.isUserdata

omit [DecidableEq Context] in
theorem asyncInit_adds (world : World Watcher Context) (self : Self Watcher)
    (LOOP_INSTANCE CALL_BACK : Argument) (ret slot : Int) :
    Adds world (world.asyncInit self LOOP_INSTANCE CALL_BACK ret slot).2
      (Accepts world .async self LOOP_INSTANCE CALL_BACK ret) := by
  unfold World.asyncInit
  by_cases userdata : self.isUserdata = true
  · rw [if_pos userdata]
    by_cases loop : LOOP_INSTANCE.isUserdata = true
    · rw [if_pos loop]
      by_cases function : CALL_BACK.isFunction = true
      · rw [if_pos function]
        cases checked : world.checkInstance .async self with
        | none => exact Adds.rejected fun _ accepts => accepts.checked checked
        | some found =>
            obtain ⟨watcher, object⟩ := found
            obtain ⟨_, same, isKind⟩ := checkInstance_eq_some checked
            have unref := Adds.unrefCallback (isKind.trans (congrArg some same.symm))
            have init := Adds.record (world.unrefCallback watcher object)
              (.uv_init watcher ret) (by simp)
            have adds : Adds world
                ((world.unrefCallback watcher object).record (.uv_init watcher ret))
                (Accepts world .async self LOOP_INSTANCE CALL_BACK ret) := by
              apply (unref.trans init).congr
              intro other
              rw [false_or]
              exact accepts_iff checked loop (fun _ => function) other
            dsimp only
            split
            · exact adds
            · have ref := adds.trans (Adds.record _ (.luaL_ref slot) (by simp))
              have kept := ref.kind watcher
              rw [isKind, ← same] at kept
              have put := Adds.put { object with callback_handle := slot } kept
              apply (ref.trans put).congr
              simp
      · rw [if_neg function]
        exact Adds.rejected fun _ accepts => function (accepts.isCallback rfl)
    · rw [if_neg loop]
      exact Adds.rejected fun _ accepts => loop accepts.isLoop
  · rw [if_neg userdata]
    exact Adds.rejected fun _ accepts => userdata accepts.isUserdata

omit [DecidableEq Context] in
/-- **What an `__init__` does**, whatever it returns: it closes nothing, and it initializes the
watcher of its class whose arguments pass the checks when libuv returns 0. -/
theorem init_adds (world : World Watcher Context) (kind : Kind) (self : Self Watcher)
    (LOOP_INSTANCE CALL_BACK : Argument) (ret slot : Int) :
    Adds world (world.init kind self LOOP_INSTANCE CALL_BACK ret slot).2
      (Accepts world kind self LOOP_INSTANCE CALL_BACK ret) := by
  cases kind with
  | timer => exact initWith_adds world _ _ (by simp) self LOOP_INSTANCE CALL_BACK ret
  | poll => exact initWith_adds world _ _ (by simp) self LOOP_INSTANCE CALL_BACK ret
  | idle => exact initWith_adds world _ _ (by simp) self LOOP_INSTANCE CALL_BACK ret
  | prepare => exact initWith_adds world _ _ (by simp) self LOOP_INSTANCE CALL_BACK ret
  | async => exact asyncInit_adds world self LOOP_INSTANCE CALL_BACK ret slot

end Init

/-! ## The watchers of a loop -/

section Agreement

variable {Callback : Type}

/-- What a call does to the registry. -/
def Call.registry : Call Watcher → Option (Lease.Call Int Unit)
  | .luaL_ref slot => some (.take slot ())
  | .luaL_unref slot => some (.release slot)
  | .uv_init _ _ => none
  | .uv_close _ => none

/-- A call on the registry, without the watcher for which it is made. -/
def anonymous : Lease.Call Int Watcher → Lease.Call Int Unit
  | .take slot _ => .take slot ()
  | .release slot => .release slot

/-- The argument as `lua_isfunction` sees it. -/
def argument (CALL_BACK : Handle.Argument Callback) : Argument :=
  if CALL_BACK.isFunction then .func else .other

/-- Both models of the watchers have the same `cHandleInfo`s and the same calls on the
registry. -/
structure Agrees (loop : Handle.World Watcher Callback) (world : World Watcher Context) :
    Prop where
  objects : ∀ watcher, world.object watcher =
    (loop.handle watcher).map fun info => ⟨info.kind, info.callback_handle⟩
  calls : world.calls.filterMap Call.registry = loop.calls.map anonymous

variable {loop loop' : Handle.World Watcher Callback} {info : Handle.Info}

omit [DecidableEq Context] in
theorem Agrees.put (agrees : Agrees loop world) (watcher : Watcher) (info : Handle.Info) :
    Agrees (loop.put watcher info) (world.put watcher ⟨info.kind, info.callback_handle⟩) where
  objects := by
    intro other
    by_cases same : other = watcher
    · subst same
      simp [World.put, Handle.World.put]
    · simp [World.put, Handle.World.put, same, agrees.objects other]
  calls := agrees.calls

omit [DecidableEq Context] in
theorem Agrees.unrefCallback (agrees : Agrees loop world) (watcher : Watcher)
    (info : Handle.Info) :
    Agrees (loop.unrefCallback watcher info)
      (world.unrefCallback watcher ⟨info.kind, info.callback_handle⟩) := by
  unfold Handle.World.unrefCallback World.unrefCallback
  split
  · have released : Agrees (loop.luaL_unref info.callback_handle)
        (world.record (.luaL_unref info.callback_handle)) := by
      refine ⟨agrees.objects, ?_⟩
      simp [World.record, Handle.World.luaL_unref, Call.registry, anonymous, agrees.calls]
    exact released.put watcher { info with callback_handle := LUA_NOREF }
  · exact agrees

omit [DecidableEq Watcher] [DecidableEq Context] in
/-- A call of libuv is none on the registry. -/
theorem Agrees.uv_init (agrees : Agrees loop world) (watcher : Watcher) (ret : Int) :
    Agrees loop (world.record (.uv_init watcher ret)) where
  objects := agrees.objects
  calls := agrees.calls

omit [DecidableEq Context] in
theorem Agrees.refCallback (agrees : Agrees loop world) {function : Callback} {slot : Int}
    (taken : loop.refCallback watcher info function slot = some loop') :
    Agrees loop' ((world.record (.luaL_ref slot)).put watcher ⟨info.kind, slot⟩) := by
  unfold Handle.World.refCallback Handle.World.luaL_ref at taken
  split at taken
  · dsimp only [Option.map_some] at taken
    cases taken
    have taken : Agrees { loop with
        registry := Function.update loop.registry slot (some (.callback function))
        calls := .take slot watcher :: loop.calls } (world.record (.luaL_ref slot)) := by
      refine ⟨agrees.objects, ?_⟩
      simp [World.record, Call.registry, anonymous, agrees.calls]
    exact taken.put watcher { info with callback_handle := slot }
  · cases taken

omit [DecidableEq Context] in
/-- **The `__init__` of an async is the same in both models.** Where the one returns, the other
does with what libuv accepts, and they agree again; where the one raises an error about an
argument, so does the other. -/
theorem Agrees.asyncInit (agrees : Agrees loop world) (isInfo : loop.handle watcher = some info)
    (CALL_BACK : Handle.Argument Callback) (slot : Int) :
    (∀ loop', loop.asyncInit watcher info CALL_BACK slot = .ok loop' →
        ∃ next, world.asyncInit (.watcher watcher) .userdata (argument CALL_BACK) 0 slot =
          (.ok (), next) ∧ Agrees loop' next) ∧
      ∀ arg message, loop.asyncInit watcher info CALL_BACK slot =
          .error (.argument arg message) →
        world.asyncInit (.watcher watcher) .userdata (argument CALL_BACK) 0 slot =
          (.error (.argument arg message), world) := by
  have object := agrees.objects watcher
  rw [isInfo] at object
  unfold Handle.World.asyncInit World.asyncInit
  by_cases isAsync : info.kind = .async
  · rw [if_pos isAsync]
    cases CALL_BACK with
    | func function =>
        have checked : world.checkInstance .async (.watcher watcher) =
            some (watcher, ⟨info.kind, info.callback_handle⟩) := by
          simp [World.checkInstance, object, isAsync]
        have again := (agrees.unrefCallback watcher info).uv_init watcher 0
        refine ⟨fun loop' returned => ?_, fun arg message failed => ?_⟩
        · dsimp only [Handle.Argument.toFunction] at returned
          split at returned
          · rename_i taken
            cases returned
            refine ⟨_, ?_, again.refCallback taken⟩
            simp [Self.isUserdata, Argument.isUserdata, argument, Handle.Argument.isFunction,
              Argument.isFunction, checked]
          · cases returned
        · dsimp only [Handle.Argument.toFunction] at failed
          split at failed
          · cases failed
          · cases failed
    | nil =>
        refine ⟨fun loop' returned => (nomatch returned), fun arg message failed => ?_⟩
        cases failed
        rfl
    | other =>
        refine ⟨fun loop' returned => (nomatch returned), fun arg message failed => ?_⟩
        cases failed
        rfl
  · rw [if_neg isAsync]
    exact ⟨fun loop' returned => (nomatch returned), fun arg message failed => (nomatch failed)⟩

end Agreement

/-! ## Histories -/

/-- A `shared_ptr` that is destroyed leaves everything else as it is, and closes the watcher if
it was the last. -/
theorem drop_cases {owner : Owner Context} (dropped : world.drop watcher owner = some next) :
    ∃ last, world.shared_ptr.leave watcher owner = some (next.shared_ptr, last) ∧
      next.object = world.object ∧
      next.calls = if last then .uv_close watcher :: world.calls else world.calls := by
  unfold World.drop at dropped
  cases left : world.shared_ptr.leave watcher owner with
  | none =>
      rw [left] at dropped
      cases dropped
  | some result =>
      obtain ⟨shared_ptr, last⟩ := result
      rw [left] at dropped
      cases last with
      | true =>
          cases dropped
          exact ⟨true, rfl, rfl, rfl⟩
      | false =>
          cases dropped
          exact ⟨false, rfl, rfl, rfl⟩

/-- A script that calls an `__init__` has the userdata that it passes. -/
theorem step_init {kind : Kind} {self : Self Watcher} {LOOP_INSTANCE CALL_BACK : Argument}
    {ret slot : Int}
    (stepped : step world (.init kind self LOOP_INSTANCE CALL_BACK ret slot) = some next) :
    next = (world.init kind self LOOP_INSTANCE CALL_BACK ret slot).2 ∧
      ∀ watcher, self = .watcher watcher → world.shared_ptr.owners watcher ≠ none := by
  cases self with
  | watcher watcher =>
      simp only [step] at stepped
      split at stepped
      · next held =>
          refine ⟨(Option.some.inj stepped).symm, ?_⟩
          intro other same absent
          cases same
          simp [World.held, absent] at held
      · cases stepped
  | otherUserdata => exact ⟨(Option.some.inj stepped).symm, by simp⟩
  | other => exact ⟨(Option.some.inj stepped).symm, by simp⟩

theorem step_new {kind : Kind} (stepped : step world (.new watcher kind) = some next) :
    world.shared_ptr.make watcher .userdata = some next.shared_ptr ∧
      next.object = Function.update world.object watcher
        (some { kind, callback_handle := LUA_NOREF }) ∧
      next.calls = world.calls := by
  obtain ⟨shared_ptr, made, rfl⟩ := Option.map_eq_some_iff.mp stepped
  exact ⟨made, rfl, rfl⟩

theorem step_share {context : Context} (stepped : step world (.share watcher context) = some next) :
    world.shared_ptr.join watcher (.context context) = some next.shared_ptr ∧
      next.object = world.object ∧ next.calls = world.calls := by
  simp only [step] at stepped
  split at stepped
  · split at stepped
    · obtain ⟨shared_ptr, joined, rfl⟩ := Option.map_eq_some_iff.mp stepped
      exact ⟨joined, rfl, rfl⟩
    · cases stepped
  · cases stepped

/-- What the watchers have to do with the history. -/
structure Sound (events : List (Event Watcher Context)) (world : World Watcher Context) :
    Prop where
  ran : (machine Watcher Context).run events = some world
  made : ∀ watcher, world.shared_ptr.owners watcher = none ↔ world.kind watcher = none
  new_iff : ∀ watcher kind, .new watcher kind ∈ events ↔ world.kind watcher = some kind
  initializes : ∀ event ∈ events, ∀ watcher kind, event.Initializes watcher kind →
    world.kind watcher ≠ none
  accounts : Sharing.Accounts (closes world.calls) world.shared_ptr
  init_iff : ∀ watcher, .uv_init watcher 0 ∈ world.calls ↔ Initialized events watcher
  proper_iff : Proper world.calls ↔ (machine Watcher Context).Each InitializedFirst events

theorem sound_initial : Sound [] (machine Watcher Context).init where
  ran := rfl
  made := by
    intro watcher
    exact ⟨fun _ => rfl, fun _ => rfl⟩
  new_iff := by
    intro watcher kind
    simp [machine, World.kind]
  initializes := by simp
  accounts := Sharing.accounts_empty
  init_iff := by
    intro watcher
    simp [machine, Initialized]
  proper_iff := ⟨fun _ => Machine.each_nil _ _, fun _ => trivial⟩

variable {events : List (Event Watcher Context)} {event : Event Watcher Context}

omit [DecidableEq Watcher] [DecidableEq Context] in
/-- Only a new watcher, or a call of an `__init__`, can add to what is initialized. -/
theorem initialized_concat_iff (events : List (Event Watcher Context))
    (notNew : ∀ watcher kind, event ≠ .new watcher kind) (watcher : Watcher) :
    Initialized (events ++ [event]) watcher ↔ Initialized events watcher ∨
      ∃ kind, .new watcher kind ∈ events ∧ event.Initializes watcher kind := by
  constructor
  · rintro ⟨kind, new, other, member, initializes⟩
    have old : .new watcher kind ∈ events := by
      rcases List.mem_append.mp new with old | last
      · exact old
      · exact absurd (List.mem_singleton.mp last).symm (notNew watcher kind)
    rcases List.mem_append.mp member with earlier | last
    · exact Or.inl ⟨kind, old, other, earlier, initializes⟩
    · cases List.mem_singleton.mp last
      exact Or.inr ⟨kind, old, initializes⟩
  · rintro (⟨kind, new, other, member, initializes⟩ | ⟨kind, new, initializes⟩)
    · exact ⟨kind, List.mem_append_left _ new, other, List.mem_append_left _ member, initializes⟩
    · exact ⟨kind, List.mem_append_left _ new, event, by simp, initializes⟩

omit [DecidableEq Watcher] [DecidableEq Context] in
/-- Other events initialize nothing. -/
theorem initialized_concat_other (events : List (Event Watcher Context))
    (notNew : ∀ watcher kind, event ≠ .new watcher kind)
    (notInit : ∀ watcher kind, ¬ event.Initializes watcher kind) (watcher : Watcher) :
    Initialized (events ++ [event]) watcher ↔ Initialized events watcher := by
  rw [initialized_concat_iff events notNew]
  simp [notInit]

omit [DecidableEq Watcher] [DecidableEq Context] in
theorem initializedFirst_of_drops (events : List (Event Watcher Context))
    (world : World Watcher Context) (drops : event.drops = none) :
    InitializedFirst events world event := by
  intro watcher owner some_
  cases drops.symm.trans some_

theorem Sound.run_concat (sound : Sound events world) (stepped : step world event = some next) :
    (machine Watcher Context).run (events ++ [event]) = some next := by
  rw [Machine.run_concat, sound.ran]
  exact stepped

/-- An event that is not a `__new__` and keeps the classes. -/
theorem Sound.new_iff_concat (sound : Sound events world)
    (notNew : ∀ watcher kind, event ≠ .new watcher kind)
    (kept : ∀ watcher, next.kind watcher = world.kind watcher) (watcher : Watcher) (kind : Kind) :
    .new watcher kind ∈ events ++ [event] ↔ next.kind watcher = some kind := by
  rw [kept, ← sound.new_iff, List.mem_append, List.mem_singleton]
  constructor
  · rintro (old | last)
    · exact old
    · exact absurd last.symm (notNew watcher kind)
  · exact Or.inl

theorem Sound.init (sound : Sound events world) {kind : Kind} {self : Self Watcher}
    {LOOP_INSTANCE CALL_BACK : Argument} {ret slot : Int}
    (stepped : step world (.init kind self LOOP_INSTANCE CALL_BACK ret slot) = some next) :
    Sound (events ++ [.init kind self LOOP_INSTANCE CALL_BACK ret slot]) next := by
  have ran := sound.run_concat stepped
  obtain ⟨same, held⟩ := step_init stepped
  have adds := init_adds world kind self LOOP_INSTANCE CALL_BACK ret slot
  rw [← same] at adds
  obtain ⟨added, calls, quiet, init⟩ := adds.calls
  refine ⟨ran, ?_, sound.new_iff_concat (by simp) adds.kind, ?_, ?_, ?_, ?_⟩
  · intro watcher
    rw [adds.shared_ptr, adds.kind]
    exact sound.made watcher
  · intro event member watcher other initializes
    rw [adds.kind]
    rcases List.mem_append.mp member with old | last
    · exact sound.initializes event old watcher other initializes
    · cases List.mem_singleton.mp last
      obtain ⟨_, _, _, isInit, _⟩ := initializes
      cases isInit
      exact fun absent => held watcher rfl ((sound.made watcher).mpr absent)
  · rw [calls, closes_append _ quiet, adds.shared_ptr]
    exact sound.accounts
  · intro watcher
    rw [calls, List.mem_append, init, sound.init_iff, initialized_concat_iff events (by simp),
      or_comm]
    apply or_congr_right
    constructor
    · intro accepts
      obtain ⟨rfl, rfl, isKind, loop, callback⟩ := accepts
      exact ⟨kind, (sound.new_iff watcher kind).mpr isKind, _, _, _, rfl, loop, callback⟩
    · rintro ⟨other, new, _, _, _, isInit, loop, callback⟩
      cases isInit
      exact ⟨rfl, rfl, (sound.new_iff watcher kind).mp new, loop, callback⟩
  · rw [calls, proper_append _ quiet, sound.proper_iff, Machine.each_concat _ _ sound.ran]
    exact (and_iff_left (initializedFirst_of_drops events world rfl)).symm

/-- A new watcher was not known before, so no `__init__` has initialized it. -/
theorem Sound.initialized_new (sound : Sound events world) {kind : Kind}
    (fresh : world.kind watcher = none) (other : Watcher) :
    Initialized (events ++ [.new watcher kind]) other ↔ Initialized events other := by
  constructor
  · rintro ⟨otherKind, new, event, member, initializes⟩
    have earlier : event ∈ events := by
      rcases List.mem_append.mp member with old | last
      · exact old
      · cases List.mem_singleton.mp last
        obtain ⟨_, _, _, isInit, _⟩ := initializes
        cases isInit
    refine ⟨otherKind, ?_, event, earlier, initializes⟩
    rcases List.mem_append.mp new with old | last
    · exact old
    · cases List.mem_singleton.mp last
      exact absurd fresh (sound.initializes event earlier _ _ initializes)
  · rintro ⟨otherKind, new, event, member, initializes⟩
    exact ⟨otherKind, List.mem_append_left _ new, event, List.mem_append_left _ member,
      initializes⟩

theorem Sound.new (sound : Sound events world) {kind : Kind}
    (stepped : step world (.new watcher kind) = some next) :
    Sound (events ++ [.new watcher kind]) next := by
  have ran := sound.run_concat stepped
  obtain ⟨made, object, calls⟩ := step_new stepped
  obtain ⟨unowned, owners⟩ := Sharing.make_eq_some made
  have fresh := (sound.made watcher).mp unowned
  have isKind : next.kind watcher = some kind := by
    simp [World.kind, object]
  have kept (other : Watcher) (different : other ≠ watcher) :
      next.kind other = world.kind other := by
    simp [World.kind, object, different]
  have stays (other : Watcher) (known : world.kind other ≠ none) :
      next.kind other = world.kind other := by
    apply kept
    intro same
    exact known (same ▸ fresh)
  refine ⟨ran, ?_, ?_, ?_, ?_, ?_, ?_⟩
  · intro other
    by_cases same : other = watcher
    · subst same
      simp [owners, isKind]
    · rw [owners, kept other same]
      simp [same, sound.made other]
  · intro other otherKind
    rw [List.mem_append, List.mem_singleton, sound.new_iff]
    constructor
    · rintro (old | last)
      · rw [stays other (by simp [old])]
        exact old
      · cases last
        exact isKind
    · intro known
      by_cases same : other = watcher
      · subst same
        cases isKind.symm.trans known
        exact Or.inr rfl
      · rw [kept other same] at known
        exact Or.inl known
  · intro event member other otherKind initializes
    rcases List.mem_append.mp member with old | last
    · have known := sound.initializes event old other otherKind initializes
      rw [stays other known]
      exact known
    · cases List.mem_singleton.mp last
      obtain ⟨_, _, _, isInit, _⟩ := initializes
      cases isInit
  · rw [calls]
    exact sound.accounts.make made
  · intro other
    rw [calls, sound.init_iff, sound.initialized_new fresh]
  · rw [calls, sound.proper_iff, Machine.each_concat _ _ sound.ran]
    exact (and_iff_left (initializedFirst_of_drops events world rfl)).symm

/-- An event that leaves the watchers as they are, except for their owners. -/
theorem Sound.owners (sound : Sound events world) (stepped : step world event = some next)
    (notNew : ∀ watcher kind, event ≠ .new watcher kind)
    (notInit : ∀ watcher kind, ¬ event.Initializes watcher kind)
    (object : next.object = world.object)
    (made : ∀ watcher, next.shared_ptr.owners watcher = none ↔
      world.shared_ptr.owners watcher = none)
    (accounts : Sharing.Accounts (closes next.calls) next.shared_ptr)
    (init : ∀ watcher, .uv_init watcher 0 ∈ next.calls ↔ .uv_init watcher 0 ∈ world.calls)
    (proper : Proper next.calls ↔ Proper world.calls ∧ InitializedFirst events world event) :
    Sound (events ++ [event]) next := by
  have kept (watcher : Watcher) : next.kind watcher = world.kind watcher := by
    simp [World.kind, object]
  refine ⟨sound.run_concat stepped, ?_, sound.new_iff_concat notNew kept, ?_, accounts, ?_, ?_⟩
  · intro watcher
    rw [made, kept]
    exact sound.made watcher
  · intro other member watcher kind initializes
    rw [kept]
    rcases List.mem_append.mp member with old | last
    · exact sound.initializes other old watcher kind initializes
    · cases List.mem_singleton.mp last
      exact absurd initializes (notInit watcher kind)
  · intro watcher
    rw [init, sound.init_iff, initialized_concat_other events notNew notInit]
  · rw [proper, sound.proper_iff, Machine.each_concat _ _ sound.ran]

theorem Sound.share (sound : Sound events world) {context : Context}
    (stepped : step world (.share watcher context) = some next) :
    Sound (events ++ [.share watcher context]) next := by
  obtain ⟨joined, object, calls⟩ := step_share stepped
  obtain ⟨first, rest, found, owners⟩ := Sharing.join_eq_some joined
  apply sound.owners stepped (by simp) (by simp [Event.Initializes]) object
  · intro other
    by_cases same : other = watcher
    · subst same
      simp [owners, found]
    · simp [owners, same]
  · rw [calls]
    exact sound.accounts.join joined
  · intro other
    rw [calls]
  · rw [calls]
    exact (and_iff_left (initializedFirst_of_drops events world rfl)).symm

/-- The last owner closes the watcher, so it has to be initialized by then. -/
theorem Sound.drop (sound : Sound events world) {owner : Owner Context}
    (stepped : step world event = some next) (drops : event.drops = some (watcher, owner))
    (dropped : world.drop watcher owner = some next) : Sound (events ++ [event]) next := by
  obtain ⟨last, left, object, calls⟩ := drop_cases dropped
  obtain ⟨owned, found, member, owners, last_iff⟩ := Sharing.leave_eq_some left
  have notNew (other : Watcher) (kind : Kind) : event ≠ .new other kind := by
    intro same
    rw [same] at drops
    cases drops
  have notInit (other : Watcher) (kind : Kind) : ¬ event.Initializes other kind := by
    rintro ⟨_, _, _, same, _⟩
    rw [same] at drops
    cases drops
  have accounts := sound.accounts.leave left
  have opened : .uv_close watcher ∉ world.calls := by
    intro closed
    exact sound.accounts.not_mem found member ((mem_closes _ _).mpr closed)
  have first : InitializedFirst events world event ↔
      (last = true → Initialized events watcher) := by
    constructor
    · intro first isLast
      exact first watcher owner drops (by rw [found, last_iff.mp isLast])
    · intro first other another drops' alone
      cases drops.symm.trans drops'
      cases found.symm.trans alone
      exact first (last_iff.mpr rfl)
  apply sound.owners stepped notNew notInit object
  · intro other
    by_cases same : other = watcher
    · subst same
      simp [owners, found]
    · simp [owners, same]
  · rw [calls]
    cases last with
    | true => exact accounts
    | false => exact accounts
  · intro other
    rw [calls]
    cases last <;> simp
  · rw [calls, first]
    cases last with
    | true => simp [Proper, opened, sound.init_iff, and_comm]
    | false => simp

theorem Sound.step (sound : Sound events world) (stepped : step world event = some next) :
    Sound (events ++ [event]) next := by
  cases event with
  | new watcher kind => exact sound.new stepped
  | init kind self LOOP_INSTANCE CALL_BACK ret slot => exact sound.init stepped
  | share watcher context => exact sound.share stepped
  | release watcher context => exact sound.drop stepped rfl stepped
  | gc watcher => exact sound.drop stepped rfl stepped

theorem sound_of_run (ran : (machine Watcher Context).run events = some world) :
    Sound events world :=
  (machine Watcher Context).run_history_invariant Sound sound_initial
    (fun _ _ _ _ sound stepped => sound.step stepped) events world ran

/-- **No watcher is closed twice**, in any history. -/
theorem closes_nodup (ran : (machine Watcher Context).run events = some world) :
    (closes world.calls).Nodup :=
  (sound_of_run ran).accounts.nodup

/-- **`uv_close` is only called on initialized watchers, and once, if and only if** whoever drops
the last reference to a watcher does so after an `__init__` of its class has initialized it. -/
theorem proper_iff (Watcher Context : Type) [DecidableEq Watcher] [DecidableEq Context]
    (events : List (Event Watcher Context)) (world : World Watcher Context)
    (ran : (machine Watcher Context).run events = some world) :
    Proper world.calls ↔ (machine Watcher Context).Each InitializedFirst events :=
  (sound_of_run ran).proper_iff

/-- A timer that is initialized and collected. -/
theorem proper_iff_timer :
    ∃ world : World Unit Unit,
      (machine Unit Unit).run [.new () .timer, .init .timer (.watcher ()) .userdata .other 0 1,
        .gc ()] = some world ∧
      world.calls = [.uv_close (), .uv_init () 0] ∧
      (machine Unit Unit).Each InitializedFirst
        [.new () .timer, .init .timer (.watcher ()) .userdata .other 0 1, .gc ()] := by
  have logged : Proper ([.uv_close (), .uv_init () 0] : List (Call Unit)) := by
    simp [Proper]
  exact ⟨_, rfl, rfl, (proper_iff Unit Unit _ _ rfl).mp logged⟩

/-- **A watcher that was never initialized is closed**: `__init__(nil)` raises an error, and the
collector takes the timer. -/
theorem not_proper_nil :
    ∃ world : World Unit Unit,
      (machine Unit Unit).run [.new () .timer, .init .timer (.watcher ()) .other .other 0 1,
        .gc ()] = some world ∧
      world.calls = [.uv_close ()] ∧ ¬ Proper world.calls := by
  refine ⟨_, rfl, rfl, ?_⟩
  intro proper
  cases proper.1

end Closing

end EasyLua
