import EasyLua.Foundation.Machine
import EasyLua.Foundation.PartialMap
import EasyLua.Network.Handle

/-!
# The watchers of one loop

Scripts create, initialize, start and stop watchers, the collector takes them, and libuv
closes them and calls back. Between these steps a script runs the callbacks of the queue and
leaves any sequence in it, and other code uses registry slots of its own.
-/

namespace EasyLua

namespace Handle

variable (Watcher Callback : Type)

inductive Event
  /-- `__new__`. -/
  | new (watcher : Watcher) (kind : Kind)
  /-- `__init__` of a watcher that is not an async. -/
  | init (watcher : Watcher)
  /-- `__init__` of an async, with the slot that `luaL_ref` returns. -/
  | asyncInit (watcher : Watcher) (callback : Argument Callback) (slot : Int)
  /-- `start`, with the slot that `luaL_ref` and the number that libuv returns. -/
  | start (watcher : Watcher) (callback : Argument Callback) (slot ret : Int)
  | stop (watcher : Watcher) (ret : Int)
  | gc (watcher : Watcher)
  /-- The deleter. -/
  | uvClose (watcher : Watcher)
  | closeCb (watcher : Watcher)
  /-- libuv calls the callback of a watcher that is not closing. -/
  | fire (watcher : Watcher)
  /-- The script changes the queue and the stack of the coroutine. -/
  | script (queue : List (Value Callback)) (stack : List (Option (Value Callback)))
  | otherRef (slot : Int)
  | otherUnref (slot : Int)

variable {Watcher Callback}

/-- The slot is one that other code has taken. -/
def World.isOther (world : World Watcher Callback) (slot : Int) : Bool :=
  match world.registry slot with
  | some .other => true
  | _ => false

variable [DecidableEq Watcher]

/-- A script's call on a watcher that it has and that is initialized. -/
def World.initialized (world : World Watcher Callback) (watcher : Watcher) : Option Info :=
  (world.handle watcher).filter fun info => info.stage = .initialized

/-- One step; no result when the event is not enabled, or the call raises an error. -/
def step (world : World Watcher Callback) :
    Event Watcher Callback → Option (World Watcher Callback)
  | .new watcher kind =>
      if (world.handle watcher).isNone then
        some (world.put watcher { kind, stage := .constructed, callback_handle := LUA_NOREF })
      else none
  | .init watcher =>
      match world.handle watcher with
      | some info =>
          if info.stage = .constructed ∨ info.stage = .initialized then
            (world.init watcher info).toOption
          else none
      | none => none
  | .asyncInit watcher callback slot =>
      match world.handle watcher with
      | some info =>
          if info.stage = .constructed ∨ info.stage = .initialized then
            (world.asyncInit watcher info callback slot).toOption
          else none
      | none => none
  | .start watcher callback slot ret =>
      match world.initialized watcher with
      | some info => (world.start watcher info callback slot ret).toOption.map Prod.snd
      | none => none
  | .stop watcher ret =>
      match world.initialized watcher with
      | some info => (world.stop watcher info ret).toOption.map Prod.snd
      | none => none
  | .gc watcher =>
      match world.initialized watcher with
      | some info => some (world.put watcher { info with stage := .collected })
      | none => none
  | .uvClose watcher =>
      match world.handle watcher with
      | some info =>
          if info.stage = .collected then
            some (world.put watcher { info with stage := .closing })
          else none
      | none => none
  | .closeCb watcher =>
      match world.handle watcher with
      | some info =>
          if info.stage = .closing then some (world.handle_close_cb watcher info) else none
      | none => none
  | .fire watcher =>
      match world.handle watcher with
      | some info =>
          if info.stage = .initialized ∨ info.stage = .collected then world.uv_cb info else none
      | none => none
  | .script queue stack => some { world with queue, stack }
  | .otherRef slot =>
      if (world.registry slot).isNone then
        some { world with registry := Function.update world.registry slot (some .other) }
      else none
  | .otherUnref slot =>
      if world.isOther slot then
        some { world with registry := Function.update world.registry slot none }
      else none

/-- The histories of a loop whose queue is at a registry slot. -/
def machine (msg_queue_handle : Int) :
    Machine (World Watcher Callback) (Event Watcher Callback) where
  init := {
    handle := fun _ => none
    registry := Function.update (fun _ => none) msg_queue_handle (some .table)
    msg_queue_handle
    queue := []
    stack := []
    calls := [] }
  step := step

/-- What an event says about the callbacks: the function most recently given to `start`, for an
async to `__init__`, and none after a `stop`. -/
def note (given : Watcher → Option Callback) : Event Watcher Callback → Watcher → Option Callback
  | .new watcher _ => Function.update given watcher none
  | .asyncInit watcher callback _ => Function.update given watcher callback.toFunction
  | .start watcher callback _ _ => Function.update given watcher callback.toFunction
  | .stop watcher _ => Function.update given watcher none
  | _ => given

def given (events : List (Event Watcher Callback)) : Watcher → Option Callback :=
  events.foldl note fun _ => none

/-! ## The slots that watchers hold -/

/-- The slot of a callback. -/
def Info.slot (info : Info) : Option Int :=
  if info.callback_handle = LUA_NOREF then none else some info.callback_handle

def World.held (world : World Watcher Callback) (watcher : Watcher) : Option Int :=
  (world.handle watcher).bind Info.slot

/-- The watchers hold the slots of their callbacks, and these are the functions they were
given last. -/
structure Sound (given : Watcher → Option Callback) (world : World Watcher Callback) : Prop where
  leases : Lease.Matches world.calls world.held
  stored : ∀ watcher slot, world.held watcher = some slot →
    ∃ function, given watcher = some function ∧
      world.registry slot = some (.callback function)
  silent : ∀ watcher info, world.handle watcher = some info → info.slot = none →
    info.stage ≠ .closed → given watcher = none
  closed : ∀ watcher info, world.handle watcher = some info → info.stage = .closed →
    info.slot = none
  callbacks : ∀ slot function, world.registry slot = some (.callback function) →
    ∃ watcher, world.held watcher = some slot
  queue : world.registry world.msg_queue_handle = some .table

variable {world next : World Watcher Callback} {given : Watcher → Option Callback}
  {watcher : Watcher} {info : Info}

omit [DecidableEq Watcher] in
theorem held_eq (isInfo : world.handle watcher = some info) : world.held watcher = info.slot := by
  unfold World.held
  rw [isInfo]
  rfl

theorem slot_of_ne (used : info.callback_handle ≠ LUA_NOREF) :
    info.slot = some info.callback_handle := if_neg used

theorem slot_eq_some {slot : Int} :
    info.slot = some slot ↔ slot ≠ LUA_NOREF ∧ info.callback_handle = slot := by
  unfold Info.slot
  split
  · rename_i unused
    constructor
    · intro none
      cases none
    · rintro ⟨used, rfl⟩
      exact absurd unused used
  · rename_i used
    constructor
    · intro same
      cases Option.some.inj same
      exact ⟨used, rfl⟩
    · rintro ⟨_, rfl⟩
      rfl

theorem put_self (world : World Watcher Callback) (watcher : Watcher) (info : Info) :
    (world.put watcher info).handle watcher = some info := Function.update_self ..

theorem put_of_ne (world : World Watcher Callback) {watcher other : Watcher} (info : Info)
    (different : other ≠ watcher) :
    (world.put watcher info).handle other = world.handle other :=
  Function.update_of_ne different ..

theorem held_put (world : World Watcher Callback) (watcher : Watcher) (info : Info) :
    (world.put watcher info).held = Function.update world.held watcher info.slot := by
  funext other
  by_cases same : other = watcher
  · subst same
    rw [Function.update_self]
    exact held_eq (put_self ..)
  · rw [Function.update_of_ne same]
    unfold World.held
    rw [put_of_ne world info same]

/-- libuv calls back before a watcher is closed. -/
theorem Stage.ne_closed_of_open {stage : Stage}
    (open_ : stage = .initialized ∨ stage = .collected) : stage ≠ .closed := by
  rintro rfl
  rcases open_ with same | same
  · cases same
  · cases same

/-- A script can call `__init__` before a watcher is collected. -/
theorem Stage.ne_closed_of_young {stage : Stage}
    (young : stage = .constructed ∨ stage = .initialized) : stage ≠ .closed := by
  rintro rfl
  rcases young with same | same
  · cases same
  · cases same

/-! ## What the operations keep -/

omit [DecidableEq Watcher] in
/-- What is said of a watcher without a callback does not matter once it is closed. -/
theorem Sound.of_agrees (sound : Sound given world) {changed : Watcher → Option Callback}
    (agrees : ∀ other, changed other = given other ∨ (world.held other = none ∧
      ∀ info, world.handle other = some info → info.stage ≠ .closed → changed other = none)) :
    Sound changed world where
  leases := sound.leases
  stored := by
    intro other slot holds
    rcases agrees other with same | ⟨without, _⟩
    · rw [same]
      exact sound.stored other slot holds
    · rw [without] at holds
      cases holds
  silent := by
    intro other info isInfo unused alive
    rcases agrees other with same | ⟨_, nothing⟩
    · rw [same]
      exact sound.silent other info isInfo unused alive
    · exact nothing info isInfo alive
  closed := sound.closed
  callbacks := sound.callbacks
  queue := sound.queue

/-- Nothing is said of a watcher without a callback. -/
theorem Sound.forget (sound : Sound given world) (without : world.held watcher = none) :
    Sound (Function.update given watcher none) world := by
  refine sound.of_agrees fun other => ?_
  by_cases same : other = watcher
  · subst same
    rw [Function.update_self]
    exact Or.inr ⟨without, fun _ _ _ => rfl⟩
  · exact Or.inl (Function.update_of_ne same ..)

/-- A watcher keeps its slot. -/
theorem Sound.put (sound : Sound given world) (same : world.held watcher = info.slot)
    (silent : info.slot = none → info.stage ≠ .closed → given watcher = none)
    (closed : info.stage = .closed → info.slot = none) :
    Sound given (world.put watcher info) := by
  have unchanged : (world.put watcher info).held = world.held := by
    rw [held_put, ← same, Function.update_eq_self]
  constructor
  · rw [unchanged]
    exact sound.leases
  · rw [unchanged]
    exact sound.stored
  · intro other data isData unused alive
    rcases PartialMap.bind_eq_some_iff.mp isData with ⟨rfl, rfl⟩ | ⟨_, old⟩
    · exact silent unused alive
    · exact sound.silent other data old unused alive
  · intro other data isData gone
    rcases PartialMap.bind_eq_some_iff.mp isData with ⟨rfl, rfl⟩ | ⟨_, old⟩
    · exact closed gone
    · exact sound.closed other data old gone
  · rw [unchanged]
    exact sound.callbacks
  · exact sound.queue

/-- A watcher that gives its slot back has no callback. -/
theorem Sound.unref (sound : Sound given world) (isInfo : world.handle watcher = some info) :
    Sound (Function.update given watcher none) (world.unrefCallback watcher info) ∧
      (world.unrefCallback watcher info).handle watcher =
        some { info with callback_handle := LUA_NOREF } := by
  unfold World.unrefCallback
  by_cases used : info.callback_handle = LUA_NOREF
  · rw [if_neg (not_not_intro used), isInfo]
    refine ⟨sound.forget ((held_eq isInfo).trans (if_pos used)), ?_⟩
    rw [← used]
  · rw [if_pos used]
    refine ⟨?_, put_self ..⟩
    have holds : world.held watcher = some info.callback_handle :=
      (held_eq isInfo).trans (slot_of_ne used)
    have held : ((world.luaL_unref info.callback_handle).put watcher
        { info with callback_handle := LUA_NOREF }).held =
          Function.update world.held watcher none := held_put ..
    constructor
    · rw [held]
      exact sound.leases.release holds
    · intro other slot isSlot
      rw [held] at isSlot
      obtain ⟨different, old⟩ := PartialMap.unbind_eq_some_iff.mp isSlot
      obtain ⟨function, isGiven, found⟩ := sound.stored other slot old
      rw [Function.update_of_ne different]
      refine ⟨function, isGiven, PartialMap.unbind_eq_some_iff.mpr ⟨?_, found⟩⟩
      rintro rfl
      exact different (sound.leases.unique old holds)
    · intro other data isData unused alive
      rcases PartialMap.bind_eq_some_iff.mp isData with ⟨rfl, _⟩ | ⟨different, old⟩
      · rw [Function.update_self]
      · rw [Function.update_of_ne different]
        exact sound.silent other data old unused alive
    · intro other data isData gone
      rcases PartialMap.bind_eq_some_iff.mp isData with ⟨_, rfl⟩ | ⟨_, old⟩
      · rfl
      · exact sound.closed other data old gone
    · intro slot function found
      obtain ⟨different, old⟩ := PartialMap.unbind_eq_some_iff.mp found
      obtain ⟨other, isSlot⟩ := sound.callbacks slot function old
      refine ⟨other, ?_⟩
      rw [held]
      refine PartialMap.unbind_eq_some_iff.mpr ⟨?_, isSlot⟩
      rintro rfl
      exact different (Option.some.inj (isSlot.symm.trans holds))
    · refine (Function.update_of_ne ?_ ..).trans sound.queue
      intro same
      obtain ⟨function, _, found⟩ := sound.stored watcher _ holds
      cases Option.some.inj (found.symm.trans (same ▸ sound.queue))

/-- A watcher without a slot takes one for the function it is given. -/
theorem Sound.ref (sound : Sound given world) {function : Callback} {slot : Int}
    (without : world.held watcher = none) (alive : info.stage ≠ .closed)
    (taken : world.refCallback watcher info function slot = some next) :
    Sound (Function.update given watcher (some function)) next := by
  unfold World.refCallback World.luaL_ref at taken
  by_cases free : (world.registry slot).isNone ∧ slot ≠ LUA_NOREF
  · rw [if_pos free, Option.map_some] at taken
    cases Option.some.inj taken
    obtain ⟨empty, used⟩ := free
    rw [Option.isNone_iff_eq_none] at empty
    have isSlot : ({ info with callback_handle := slot } : Info).slot = some slot :=
      slot_of_ne used
    have unknown : ∀ other, world.held other ≠ some slot := by
      intro other holds
      obtain ⟨_, _, found⟩ := sound.stored other slot holds
      cases empty.symm.trans found
    have held := held_put { world with
      registry := Function.update world.registry slot (some (.callback function))
      calls := .take slot watcher :: world.calls } watcher { info with callback_handle := slot }
    rw [isSlot] at held
    constructor
    · rw [held]
      exact sound.leases.take without unknown
    · intro other asked holds
      rw [held] at holds
      rcases PartialMap.bind_eq_some_iff.mp holds with ⟨rfl, rfl⟩ | ⟨different, old⟩
      · exact ⟨function, Function.update_self .., Function.update_self ..⟩
      · obtain ⟨earlier, isGiven, found⟩ := sound.stored other asked old
        rw [Function.update_of_ne different]
        refine ⟨earlier, isGiven, PartialMap.bind_eq_some_iff.mpr (Or.inr ⟨?_, found⟩)⟩
        rintro rfl
        exact unknown other old
    · intro other data isData unused open_
      rcases PartialMap.bind_eq_some_iff.mp isData with ⟨_, rfl⟩ | ⟨different, old⟩
      · cases isSlot.symm.trans unused
      · rw [Function.update_of_ne different]
        exact sound.silent other data old unused open_
    · intro other data isData gone
      rcases PartialMap.bind_eq_some_iff.mp isData with ⟨_, rfl⟩ | ⟨_, old⟩
      · exact absurd gone alive
      · exact sound.closed other data old gone
    · intro asked earlier found
      rw [held]
      rcases PartialMap.bind_eq_some_iff.mp found with ⟨rfl, _⟩ | ⟨_, old⟩
      · exact ⟨watcher, Function.update_self ..⟩
      · obtain ⟨other, holds⟩ := sound.callbacks asked earlier old
        refine ⟨other, PartialMap.bind_eq_some_iff.mpr (Or.inr ⟨?_, holds⟩)⟩
        rintro rfl
        cases without.symm.trans holds
    · refine (Function.update_of_ne ?_ ..).trans sound.queue
      intro same
      cases empty.symm.trans (same ▸ sound.queue)
  · rw [if_neg free] at taken
    cases taken

omit [DecidableEq Watcher] in
/-- **One event** appends the function that the watcher was given last, or nothing, and leaves
the stack as it was. -/
theorem Sound.callback (sound : Sound given world) (isInfo : world.handle watcher = some info)
    (alive : info.stage ≠ .closed) :
    world.uv_cb info =
      some { world with
        queue := world.queue ++ (given watcher).toList.map Value.callback } := by
  have common : world.uv_cb info = world.common_handle_cb info := by
    unfold World.uv_cb World.uv_poll_cb_
    split <;> rfl
  rw [common]
  unfold World.common_handle_cb
  by_cases used : info.callback_handle = LUA_NOREF
  · have nothing := sound.silent watcher info isInfo (if_pos used) alive
    rw [if_pos used.symm, nothing, Option.toList_none, List.map_nil, List.append_nil]
  · obtain ⟨function, isGiven, found⟩ := sound.stored watcher info.callback_handle
      ((held_eq isInfo).trans (slot_of_ne used))
    rw [if_neg (fun same => used same.symm), isGiven]
    simp [World.rawgeti, World.rawlen, World.pushinteger, World.settable, World.pop,
      sound.queue, found]

/-- The watcher has the callback that it is given, if any. -/
theorem Sound.renew (sound : Sound given world) (isInfo : world.handle watcher = some info)
    {later : Info} (alive : later.stage ≠ .closed) {function : Callback} {slot : Int}
    (taken : (world.unrefCallback watcher info).refCallback watcher later function slot =
      some next) :
    Sound (Function.update given watcher (some function)) next := by
  obtain ⟨without, isLater⟩ := sound.unref isInfo
  have taker := without.ref (held_eq isLater) alive taken
  rw [Function.update_idem] at taker
  exact taker

/-- A `start` that returns. -/
theorem Sound.startWith (sound : Sound given world) (isInfo : world.handle watcher = some info)
    (alive : info.stage ≠ .closed) {accepts : Argument Callback → Bool}
    {callback : Argument Callback} {slot ret : Int} {returned : Bool}
    (started : world.startWith accepts watcher info callback slot ret = .ok (returned, next)) :
    Sound (Function.update given watcher callback.toFunction) next := by
  unfold World.startWith at started
  split at started
  · dsimp only at started
    cases argument : callback.toFunction with
    | none =>
        rw [argument] at started
        cases Except.ok.inj started
        exact (sound.unref isInfo).1
    | some function =>
        rw [argument] at started
        dsimp only at started
        split at started
        · rename_i taken
          cases Except.ok.inj started
          exact sound.renew isInfo alive taken
        · cases started
  · cases started

/-- The `start` of every class is one of these. -/
theorem start_eq {callback : Argument Callback} {slot ret : Int} {returned : Bool}
    (started : world.start watcher info callback slot ret = .ok (returned, next)) :
    ∃ accepts, world.startWith accepts watcher info callback slot ret = .ok (returned, next) := by
  unfold World.start at started
  split at started
  · exact ⟨_, started⟩
  · exact ⟨_, started⟩
  · exact ⟨_, started⟩
  · exact ⟨_, started⟩
  · cases started

/-- The `__init__` of an async that returns. -/
theorem Sound.asyncInit (sound : Sound given world) (isInfo : world.handle watcher = some info)
    {callback : Argument Callback} {slot : Int}
    (returned : world.asyncInit watcher info callback slot = .ok next) :
    Sound (Function.update given watcher callback.toFunction) next := by
  unfold World.asyncInit at returned
  split at returned
  · cases argument : callback.toFunction with
    | none =>
        rw [argument] at returned
        cases returned
    | some function =>
        rw [argument] at returned
        dsimp only at returned
        split at returned
        · rename_i taken
          cases Except.ok.inj returned
          refine sound.renew isInfo (fun gone => ?_) taken
          cases gone
        · cases returned
  · cases returned

/-- A closed watcher holds nothing. -/
theorem Sound.close (sound : Sound given world) (isInfo : world.handle watcher = some info) :
    Sound given (world.handle_close_cb watcher info) := by
  obtain ⟨without, isLater⟩ := sound.unref isInfo
  have closed : Sound (Function.update given watcher none) (world.handle_close_cb watcher info) :=
    without.put ((held_eq isLater).trans rfl) (fun _ _ => Function.update_self ..) (fun _ => rfl)
  refine closed.of_agrees fun other => ?_
  by_cases same : other = watcher
  · subst same
    refine Or.inr ⟨held_eq (put_self ..), fun data isData open_ => ?_⟩
    cases Option.some.inj ((put_self ..).symm.trans isData)
    exact absurd rfl open_
  · exact Or.inl (Function.update_of_ne same ..).symm

/-- A watcher goes on to another stage. -/
theorem Sound.stage (sound : Sound given world) (isInfo : world.handle watcher = some info)
    (alive : info.stage ≠ .closed) {stage : Stage} (next : stage ≠ .closed) :
    Sound given (world.put watcher { info with stage }) :=
  sound.put ((held_eq isInfo).trans rfl)
    (fun unused _ => sound.silent watcher info isInfo unused alive) (fun gone => absurd gone next)

omit [DecidableEq Watcher] in
/-- Other code takes or gives back a slot of its own. -/
theorem Sound.other (sound : Sound given world) {slot : Int} {value : Option (Value Callback)}
    (before : ∀ function, world.registry slot ≠ some (.callback function))
    (apart : world.registry slot ≠ some .table)
    (after : ∀ function, value ≠ some (.callback function)) :
    Sound given { world with registry := Function.update world.registry slot value } where
  leases := sound.leases
  stored := by
    intro watcher asked holds
    obtain ⟨function, isGiven, found⟩ := sound.stored watcher asked holds
    refine ⟨function, isGiven, (Function.update_of_ne ?_ ..).trans found⟩
    rintro rfl
    exact before function found
  silent := sound.silent
  closed := sound.closed
  callbacks := by
    intro asked function found
    dsimp only at found
    by_cases same : asked = slot
    · rw [same, Function.update_self] at found
      exact absurd found (after function)
    · rw [Function.update_of_ne same] at found
      exact sound.callbacks asked function found
  queue := by
    refine (Function.update_of_ne ?_ ..).trans sound.queue
    intro same
    exact apart (same ▸ sound.queue)

omit [DecidableEq Watcher] in
/-- The queue and the stack do not matter. -/
theorem Sound.script (sound : Sound given world) (queue : List (Value Callback))
    (stack : List (Option (Value Callback))) : Sound given { world with queue, stack } where
  leases := sound.leases
  stored := sound.stored
  silent := sound.silent
  closed := sound.closed
  callbacks := sound.callbacks
  queue := sound.queue

omit [DecidableEq Watcher] in
theorem initialized_eq_some (isInfo : world.initialized watcher = some info) :
    world.handle watcher = some info ∧ info.stage = .initialized := by
  obtain ⟨found, stage⟩ := Option.filter_eq_some_iff.mp isInfo
  exact ⟨found, of_decide_eq_true stage⟩

/-! ## The steps -/

/-- The watcher is open, and goes on to a stage in which it is open or closing. -/
def Advances (world : World Watcher Callback) (watcher : Watcher)
    (next : World Watcher Callback) : Prop :=
  ∃ info stage, world.handle watcher = some info ∧ info.stage ≠ .closed ∧ stage ≠ .closed ∧
    next = world.put watcher { info with stage }

theorem step_init (stepped : step world (.init watcher) = some next) :
    Advances world watcher next := by
  unfold step at stepped
  dsimp only at stepped
  split at stepped
  · rename_i info isInfo
    split at stepped
    · rename_i stage
      unfold World.init at stepped
      split at stepped
      · cases stepped
      · cases Option.some.inj stepped
        exact ⟨info, .initialized, isInfo, Stage.ne_closed_of_young stage,
          (fun gone => by cases gone), rfl⟩
    · cases stepped
  · cases stepped

theorem step_gc (stepped : step world (.gc watcher) = some next) :
    Advances world watcher next := by
  unfold step at stepped
  dsimp only at stepped
  split at stepped
  · rename_i info found
    obtain ⟨isInfo, stage⟩ := initialized_eq_some found
    cases Option.some.inj stepped
    refine ⟨info, .collected, isInfo, fun gone => ?_, (fun gone => by cases gone), rfl⟩
    rw [stage] at gone
    cases gone
  · cases stepped

theorem step_uvClose (stepped : step world (.uvClose watcher) = some next) :
    Advances world watcher next := by
  unfold step at stepped
  dsimp only at stepped
  split at stepped
  · rename_i info isInfo
    split at stepped
    · rename_i stage
      cases Option.some.inj stepped
      refine ⟨info, .closing, isInfo, fun gone => ?_, (fun gone => by cases gone), rfl⟩
      rw [stage] at gone
      cases gone
    · cases stepped
  · cases stepped

theorem step_asyncInit {callback : Argument Callback} {slot : Int}
    (stepped : step world (.asyncInit watcher callback slot) = some next) :
    ∃ info, world.handle watcher = some info ∧ info.stage ≠ .closed ∧
      world.asyncInit watcher info callback slot = .ok next := by
  unfold step at stepped
  dsimp only at stepped
  split at stepped
  · rename_i info isInfo
    split at stepped
    · rename_i stage
      cases returned : world.asyncInit watcher info callback slot with
      | error failure =>
          rw [returned] at stepped
          cases stepped
      | ok later =>
          rw [returned] at stepped
          cases Option.some.inj stepped
          exact ⟨info, isInfo, Stage.ne_closed_of_young stage, returned⟩
    · cases stepped
  · cases stepped

theorem step_start {callback : Argument Callback} {slot ret : Int}
    (stepped : step world (.start watcher callback slot ret) = some next) :
    ∃ info accepts returned, world.handle watcher = some info ∧ info.stage = .initialized ∧
      world.startWith accepts watcher info callback slot ret = .ok (returned, next) := by
  unfold step at stepped
  dsimp only at stepped
  split at stepped
  · rename_i info found
    obtain ⟨isInfo, stage⟩ := initialized_eq_some found
    cases started : world.start watcher info callback slot ret with
    | error failure =>
        rw [started] at stepped
        cases stepped
    | ok result =>
        rw [started] at stepped
        cases Option.some.inj stepped
        obtain ⟨accepts, common⟩ := start_eq started
        exact ⟨info, accepts, result.1, isInfo, stage, common⟩
  · cases stepped

theorem step_stop {ret : Int} (stepped : step world (.stop watcher ret) = some next) :
    ∃ info, world.handle watcher = some info ∧ info.stage = .initialized ∧
      next = world.unrefCallback watcher info := by
  unfold step at stepped
  dsimp only at stepped
  split at stepped
  · rename_i info found
    obtain ⟨isInfo, stage⟩ := initialized_eq_some found
    unfold World.stop at stepped
    split at stepped
    · cases stepped
    · cases Option.some.inj stepped
      exact ⟨info, isInfo, stage, rfl⟩
  · cases stepped

theorem step_closeCb (stepped : step world (.closeCb watcher) = some next) :
    ∃ info, world.handle watcher = some info ∧ info.stage = .closing ∧
      next = world.handle_close_cb watcher info := by
  unfold step at stepped
  dsimp only at stepped
  split at stepped
  · rename_i info isInfo
    split at stepped
    · rename_i stage
      cases Option.some.inj stepped
      exact ⟨info, isInfo, stage, rfl⟩
    · cases stepped
  · cases stepped

theorem step_fire (stepped : step world (.fire watcher) = some next) :
    ∃ info, world.handle watcher = some info ∧ info.stage ≠ .closed ∧
      world.uv_cb info = some next := by
  unfold step at stepped
  dsimp only at stepped
  split at stepped
  · rename_i info isInfo
    split at stepped
    · rename_i stage
      exact ⟨info, isInfo, Stage.ne_closed_of_open stage, stepped⟩
    · cases stepped
  · cases stepped

/-! ## Histories -/

theorem Sound.advance (sound : Sound given world) (advances : Advances world watcher next) :
    Sound given next := by
  obtain ⟨info, stage, isInfo, alive, notClosed, rfl⟩ := advances
  exact sound.stage isInfo alive notClosed

theorem sound_step (sound : Sound given world) {event : Event Watcher Callback}
    (stepped : step world event = some next) : Sound (note given event) next := by
  cases event with
  | new watcher kind =>
      unfold step at stepped
      dsimp only at stepped
      split at stepped
      · rename_i absent
        cases Option.some.inj stepped
        have without : world.held watcher = none := by
          unfold World.held
          rw [Option.isNone_iff_eq_none.mp absent]
          rfl
        exact (sound.forget without).put (without.trans rfl)
          (fun _ _ => Function.update_self ..) (fun gone => by cases gone)
      · cases stepped
  | init watcher => exact sound.advance (step_init stepped)
  | asyncInit watcher callback slot =>
      obtain ⟨info, isInfo, _, returned⟩ := step_asyncInit stepped
      exact sound.asyncInit isInfo returned
  | start watcher callback slot ret =>
      obtain ⟨info, accepts, returned, isInfo, stage, started⟩ := step_start stepped
      apply sound.startWith isInfo _ started
      rw [stage]
      intro gone
      cases gone
  | stop watcher ret =>
      obtain ⟨info, isInfo, _, rfl⟩ := step_stop stepped
      exact (sound.unref isInfo).1
  | gc watcher => exact sound.advance (step_gc stepped)
  | uvClose watcher => exact sound.advance (step_uvClose stepped)
  | closeCb watcher =>
      obtain ⟨info, isInfo, _, rfl⟩ := step_closeCb stepped
      exact sound.close isInfo
  | fire watcher =>
      obtain ⟨info, isInfo, alive, called⟩ := step_fire stepped
      rw [sound.callback isInfo alive] at called
      cases Option.some.inj called
      exact sound.script _ _
  | script queue stack =>
      cases Option.some.inj stepped
      exact sound.script queue stack
  | otherRef slot =>
      unfold step at stepped
      dsimp only at stepped
      split at stepped
      · rename_i free
        cases Option.some.inj stepped
        rw [Option.isNone_iff_eq_none] at free
        apply sound.other
        · intro function found
          cases free.symm.trans found
        · intro found
          cases free.symm.trans found
        · intro function same
          cases same
      · cases stepped
  | otherUnref slot =>
      unfold step at stepped
      dsimp only at stepped
      split at stepped
      · rename_i own
        cases Option.some.inj stepped
        unfold World.isOther at own
        apply sound.other
        · intro function found
          rw [found] at own
          cases own
        · intro found
          rw [found] at own
          cases own
        · intro function same
          cases same
      · cases stepped

/-! ## Closed watchers -/

/-- `handle_close_cb` has deleted the `cHandleInfo` of the watcher. -/
def IsClosed (world : World Watcher Callback) (watcher : Watcher) : Prop :=
  ∃ info, world.handle watcher = some info ∧ info.stage = .closed

/-- An operation on one watcher leaves the others as they are. -/
def Leaves (watcher : Watcher) (world next : World Watcher Callback) : Prop :=
  ∀ other, other ≠ watcher → next.handle other = world.handle other

theorem leaves_put (world : World Watcher Callback) (watcher : Watcher) (info : Info) :
    Leaves watcher world (world.put watcher info) :=
  fun _ different => put_of_ne world info different

theorem leaves_unrefCallback (world : World Watcher Callback) (watcher : Watcher) (info : Info) :
    Leaves watcher world (world.unrefCallback watcher info) := by
  intro other different
  unfold World.unrefCallback
  split
  · exact put_of_ne _ _ different
  · rfl

theorem leaves_refCallback {function : Callback} {slot : Int}
    (taken : world.refCallback watcher info function slot = some next) :
    Leaves watcher world next := by
  intro other different
  unfold World.refCallback World.luaL_ref at taken
  split at taken
  · cases Option.some.inj taken
    exact put_of_ne _ _ different
  · cases taken

omit [DecidableEq Watcher] in
theorem Leaves.trans {middle : World Watcher Callback} (first : Leaves watcher world middle)
    (second : Leaves watcher middle next) : Leaves watcher world next :=
  fun other different => (second other different).trans (first other different)

theorem leaves_startWith {accepts : Argument Callback → Bool} {callback : Argument Callback}
    {slot ret : Int} {returned : Bool}
    (started : world.startWith accepts watcher info callback slot ret = .ok (returned, next)) :
    Leaves watcher world next := by
  have unref := leaves_unrefCallback world watcher info
  unfold World.startWith at started
  split at started
  · dsimp only at started
    split at started
    · split at started
      · rename_i taken
        cases Except.ok.inj started
        exact unref.trans (leaves_refCallback taken)
      · cases started
    · cases Except.ok.inj started
      exact unref
  · cases started

theorem leaves_asyncInit {callback : Argument Callback} {slot : Int}
    (returned : world.asyncInit watcher info callback slot = .ok next) :
    Leaves watcher world next := by
  have unref := leaves_unrefCallback world watcher info
  unfold World.asyncInit at returned
  split at returned
  · split at returned
    · dsimp only at returned
      split at returned
      · rename_i taken
        cases Except.ok.inj returned
        exact unref.trans (leaves_refCallback taken)
      · cases returned
    · cases returned
  · cases returned

omit [DecidableEq Watcher] in
/-- No operation is on a closed watcher. -/
theorem IsClosed.of_leaves {closed : Watcher} (isClosed : IsClosed world closed)
    (isInfo : world.handle watcher = some info) (alive : info.stage ≠ .closed)
    (leaves : Leaves watcher world next) : IsClosed next closed := by
  obtain ⟨data, found, gone⟩ := isClosed
  have different : closed ≠ watcher := by
    rintro rfl
    cases found.symm.trans isInfo
    exact alive gone
  exact ⟨data, (leaves closed different).trans found, gone⟩

theorem IsClosed.advance {closed : Watcher} (isClosed : IsClosed world closed)
    (advances : Advances world watcher next) : IsClosed next closed := by
  obtain ⟨info, stage, isInfo, alive, _, rfl⟩ := advances
  exact isClosed.of_leaves isInfo alive (leaves_put world watcher _)

/-- A watcher stays closed. -/
theorem IsClosed.step {closed : Watcher} (isClosed : IsClosed world closed)
    (sound : Sound given world) {event : Event Watcher Callback}
    (stepped : Handle.step world event = some next) : IsClosed next closed := by
  cases event with
  | new watcher kind =>
      unfold Handle.step at stepped
      dsimp only at stepped
      split at stepped
      · rename_i absent
        cases Option.some.inj stepped
        obtain ⟨data, found, gone⟩ := isClosed
        have different : closed ≠ watcher := by
          rintro rfl
          cases found.symm.trans (Option.isNone_iff_eq_none.mp absent)
        exact ⟨data, (put_of_ne world _ different).trans found, gone⟩
      · cases stepped
  | init watcher => exact isClosed.advance (step_init stepped)
  | asyncInit watcher callback slot =>
      obtain ⟨info, isInfo, alive, returned⟩ := step_asyncInit stepped
      exact isClosed.of_leaves isInfo alive (leaves_asyncInit returned)
  | start watcher callback slot ret =>
      obtain ⟨info, accepts, returned, isInfo, stage, started⟩ := step_start stepped
      exact isClosed.of_leaves isInfo (by simp [stage]) (leaves_startWith started)
  | stop watcher ret =>
      obtain ⟨info, isInfo, stage, rfl⟩ := step_stop stepped
      exact isClosed.of_leaves isInfo (by simp [stage]) (leaves_unrefCallback world watcher info)
  | gc watcher => exact isClosed.advance (step_gc stepped)
  | uvClose watcher => exact isClosed.advance (step_uvClose stepped)
  | closeCb watcher =>
      obtain ⟨info, isInfo, stage, rfl⟩ := step_closeCb stepped
      exact isClosed.of_leaves isInfo (by simp [stage])
        ((leaves_unrefCallback world watcher info).trans (leaves_put _ watcher _))
  | fire watcher =>
      obtain ⟨info, isInfo, alive, called⟩ := step_fire stepped
      rw [sound.callback isInfo alive] at called
      cases Option.some.inj called
      exact isClosed
  | script queue stack =>
      cases Option.some.inj stepped
      exact isClosed
  | otherRef slot =>
      unfold Handle.step at stepped
      dsimp only at stepped
      split at stepped
      · cases Option.some.inj stepped
        exact isClosed
      · cases stepped
  | otherUnref slot =>
      unfold Handle.step at stepped
      dsimp only at stepped
      split at stepped
      · cases Option.some.inj stepped
        exact isClosed
      · cases stepped

/-- The close callback closes its watcher. -/
theorem isClosed_closeCb (stepped : step world (.closeCb watcher) = some next) :
    IsClosed next watcher := by
  obtain ⟨info, _, _, rfl⟩ := step_closeCb stepped
  exact ⟨_, put_self .., rfl⟩

/-- The watchers are sound, and those whose close callback has run are closed. -/
structure SoundAfter (events : List (Event Watcher Callback)) (world : World Watcher Callback) :
    Prop where
  sound : Sound (Handle.given events) world
  closed : ∀ watcher, .closeCb watcher ∈ events → IsClosed world watcher

theorem SoundAfter.step {events : List (Event Watcher Callback)}
    (before : SoundAfter events world) {event : Event Watcher Callback}
    (stepped : Handle.step world event = some next) : SoundAfter (events ++ [event]) next where
  sound := by
    have later := sound_step before.sound stepped
    unfold Handle.given at later ⊢
    rw [List.foldl_append]
    exact later
  closed := by
    intro watcher member
    rcases List.mem_append.mp member with old | new
    · exact (before.closed watcher old).step before.sound stepped
    · rw [← List.mem_singleton.mp new] at stepped
      exact isClosed_closeCb stepped

/-- What the watchers and the registry promise after the events. -/
structure Proper (events : List (Event Watcher Callback)) (world : World Watcher Callback) :
    Prop where
  /-- The slots that watchers have taken and not given back are those of their callbacks. -/
  held : ∀ slot watcher, Lease.holder world.calls slot = some watcher ↔
    slot ≠ LUA_NOREF ∧
      ∃ info, world.handle watcher = some info ∧ info.callback_handle = slot
  distinct : ∀ first second left right, world.handle first = some left →
    world.handle second = some right → left.callback_handle = right.callback_handle →
      left.callback_handle ≠ LUA_NOREF → first = second
  /-- Every slot that was given back was on loan. -/
  released : ∀ later slot earlier, world.calls = later ++ .release slot :: earlier →
    ∃ watcher, Lease.holder earlier slot = some watcher
  /-- The registry keeps no function that no watcher holds. -/
  kept : ∀ slot function, world.registry slot = some (.callback function) →
    ∃ watcher, Lease.holder world.calls slot = some watcher
  /-- A watcher whose close callback has run holds no slot. -/
  closed : ∀ watcher, .closeCb watcher ∈ events →
    ∀ slot, Lease.holder world.calls slot ≠ some watcher
  /-- An event appends the function that the watcher was given last, or nothing. -/
  fired : ∀ watcher info, world.handle watcher = some info →
    info.stage = .initialized ∨ info.stage = .collected →
      step world (.fire watcher) = some { world with
        queue := world.queue ++ (Handle.given events watcher).toList.map Value.callback }

theorem SoundAfter.proper {events : List (Event Watcher Callback)}
    (after : SoundAfter events world) : Proper events world where
  held := by
    intro slot watcher
    rw [after.sound.leases.holder_iff]
    unfold World.held
    rw [Option.bind_eq_some_iff]
    constructor
    · rintro ⟨info, isInfo, isSlot⟩
      obtain ⟨used, same⟩ := slot_eq_some.mp isSlot
      exact ⟨used, info, isInfo, same⟩
    · rintro ⟨used, info, isInfo, same⟩
      exact ⟨info, isInfo, slot_eq_some.mpr ⟨used, same⟩⟩
  distinct := by
    intro first second left right isLeft isRight same used
    refine after.sound.leases.unique ((held_eq isLeft).trans (slot_of_ne used)) ?_
    exact (held_eq isRight).trans (slot_eq_some.mpr ⟨used, same.symm⟩)
  released := by
    intro later slot earlier split
    exact Lease.Proper.released (split ▸ after.sound.leases.proper)
  kept := by
    intro slot function found
    obtain ⟨watcher, holds⟩ := after.sound.callbacks slot function found
    exact ⟨watcher, (after.sound.leases.holder_iff slot watcher).mpr holds⟩
  closed := by
    intro watcher ran slot holds
    obtain ⟨info, isInfo, gone⟩ := after.closed watcher ran
    have isSlot := (after.sound.leases.holder_iff slot watcher).mp holds
    rw [held_eq isInfo, after.sound.closed watcher info isInfo gone] at isSlot
    cases isSlot
  fired := by
    intro watcher info isInfo stage
    unfold Handle.step
    dsimp only
    rw [isInfo]
    dsimp only
    rw [if_pos stage]
    exact after.sound.callback isInfo (Stage.ne_closed_of_open stage)

/-- **The watchers share the registry properly**, whatever scripts, libuv and the collector do. -/
theorem proper_of_run (msg_queue_handle : Int) (events : List (Event Watcher Callback))
    (world : World Watcher Callback) (ran : (machine msg_queue_handle).run events = some world) :
    Proper events world := by
  refine SoundAfter.proper ((machine msg_queue_handle).run_history_invariant SoundAfter ?_
    (fun _ _ _ _ before stepped => before.step stepped) events world ran)
  refine ⟨?_, fun _ ran => by cases ran⟩
  exact {
    leases := Lease.Matches.empty fun _ => rfl
    stored := fun _ _ holds => by cases holds
    silent := fun _ _ isInfo _ _ => by cases isInfo
    closed := fun _ _ isInfo _ => by cases isInfo
    callbacks := by
      intro slot function found
      dsimp only [machine] at found
      rcases PartialMap.bind_eq_some_iff.mp found with ⟨_, table⟩ | ⟨_, nothing⟩
      · cases table
      · cases nothing
    queue := by
      dsimp only [machine]
      rw [Function.update_self] }

/-- An async that is closed with its function, and a timer that is started anew with the slot it
has given back, started with a nil, and closed. -/
def timerAndAsync : List (Event Nat Nat) :=
  [.new 0 .timer, .init 0, .new 1 .async, .asyncInit 1 (.func 7) 5, .start 0 (.func 8) 6 0,
    .fire 1, .fire 0, .start 0 (.func 9) 6 0, .fire 0, .start 0 .nil 0 0, .fire 0, .stop 0 0,
    .gc 0, .uvClose 0, .closeCb 0, .fire 1, .gc 1, .uvClose 1, .closeCb 1]

theorem proper_of_run_timerAndAsync : ∃ world,
    (machine 3).run timerAndAsync = some world ∧
      world.queue = [.callback 7, .callback 8, .callback 9, .callback 7] ∧
      Lease.holder world.calls 5 = none ∧ Proper timerAndAsync world := by
  have observed : ((machine 3).run timerAndAsync).map (fun world =>
      (world.queue, Lease.holder world.calls 5)) =
        some ([.callback 7, .callback 8, .callback 9, .callback 7], none) := by rfl
  obtain ⟨world, ran, seen⟩ := Option.map_eq_some_iff.mp observed
  obtain ⟨queue, closed⟩ := Prod.mk.inj seen
  exact ⟨world, ran, queue, closed, proper_of_run 3 timerAndAsync world ran⟩

end Handle

end EasyLua
