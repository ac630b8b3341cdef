import EasyLua.Registry.Iteration
import EasyLua.Service.Membership
import Mathlib.Algebra.Order.Ring.Int

/-!
# Addressing a VM by its id

`cThisVM.sendByVmId` and the registries it depends on. A VM is constructed with a handle
and checked in; when its last reference is dropped it is dead at once, and its destructor
callbacks erase its entries one after the other. The id is an integer of the script with
64 bits, the key of a registry an `int`, and a handle unsigned.
-/

namespace EasyLua

namespace Address

open Iteration (Registry)

variable (Service : Type)

/-- A constructed context: the service it belongs to, its handle, the session of its last
message, its queue, and the registries in which one of its destructor callbacks erases its
entry. -/
structure Vm where
  service : Service
  handle_ : UInt32
  sessionId : Int32
  context : VmContext
  alive : Bool
  callbacks : List (Registry Service)

/-- The registries, and the contexts in the order of their construction. -/
structure World where
  map_ : Registry Service → Register Int32 Nat
  vm : Nat → Option (Vm Service)
  created : Nat

/-- One operation. -/
inductive Event
  /-- `cVmContext::cVmContext`, which leaves `sessionId` uninitialised. -/
  | construct (service : Service) (handle_ : UInt32) (sessionId : Int32)
  /-- `Register::checkIn` in `__new__`. -/
  | checkIn (registry : Registry Service) (number : Nat)
  /-- The last reference to the context is dropped. -/
  | expire (number : Nat)
  /-- A destructor callback of a dead context erases its entry. -/
  | runCallback (registry : Registry Service) (number : Nat)
  | sendByVmId (sender : Nat) (targetVmId : Int64) (charMsg : Option (List UInt8)) (size : Int64)

variable {Service}

namespace World

variable (world : World Service)

/-- The contexts whose references can be locked. -/
def alive (number : Nat) : Bool :=
  match world.vm number with
  | some vm => vm.alive
  | none => false

/-- `cVmContext::cVmContext`. -/
def construct (service : Service) (handle_ : UInt32) (sessionId : Int32) : World Service :=
  { world with
    vm := Function.update world.vm world.created (some
      { service, handle_, sessionId, context := {}, alive := true, callbacks := [] })
    created := world.created + 1 }

def modify (number : Nat) (function : Vm Service → Vm Service) : World Service :=
  { world with vm := Function.update world.vm number ((world.vm number).map function) }

variable [DecidableEq Service] in
def setRegister (registry : Registry Service) (register : Register Int32 Nat) : World Service :=
  { world with map_ := Function.update world.map_ registry register }

/-- The messages that wait in the own queue of a VM. -/
def queue (number : Nat) : List Mail :=
  match world.vm number with
  | some vm => vm.context.msgQueue_.queue_
  | none => []

end World

/-- `cVmContext::newSession`. -/
def newSession (sessionId : Int32) : Int32 :=
  let session := sessionId + 1
  if session ≤ 0 then 1 else session

def MSG_TYPE_LUA : UInt64 := 1

def MESSAGE_TYPE_SHIFT : UInt64 := (8 - 1) * 8

/-- The message that `sendByVmId` makes for a VM of a service with this name. -/
def luaMessage (serviceName : String) (self : Vm Service) (charMsg : Option (List UInt8))
    (size : Int64) : Mail where
  msg :=
    { sourceServiceName := serviceName
      sourceVm := self.handle_
      session := newSession self.sessionId
      data := charMsg
      sz := size.toUInt64 ||| MSG_TYPE_LUA <<< MESSAGE_TYPE_SHIFT }

/-- `newSession` of the sender. -/
def World.startSession (world : World Service) (sender : Nat) : World Service :=
  world.modify sender fun self => { self with sessionId := newSession self.sessionId }

/-- `cVmContext::pushMsg`. -/
def World.pushMsg (world : World Service) (target : Nat) (msg : Mail) : World Service :=
  world.modify target fun vm => { vm with context := vm.context.pushMsg msg }

section Operations

variable (serviceName : Service → String)

/-- `sendByVmId`, called on a living VM: what it returns to the script. -/
def sendByVmId (world : World Service) (sender : Nat) (targetVmId : Int64)
    (charMsg : Option (List UInt8)) (size : Int64) : Option (Bool × World Service) :=
  match world.vm sender with
  | none => none
  | some self =>
      if self.alive then
        let msg := luaMessage (serviceName self.service) self charMsg size
        let world := world.startSession sender
        -- `static_cast<int>`
        match (world.map_ .contextMgr).fetch world.alive targetVmId.toInt32 with
        | some targetVmContext => some (true, world.pushMsg targetVmContext msg)
        | none => some (false, world)
      else none

variable [DecidableEq Service]

/-- One operation; no result when it is not enabled. -/
def step (world : World Service) : Event Service → Option (World Service)
  | .construct service handle_ sessionId =>
      some (world.construct service handle_ sessionId)
  | .checkIn registry number =>
      match world.vm number with
      | none => none
      | some vm =>
          if vm.alive then
            match (world.map_ registry).checkIn (fun _ => Membership.key vm.handle_) number with
            | (register, true) =>
                some ((world.setRegister registry register).modify number fun vm =>
                  { vm with callbacks := vm.callbacks ++ [registry] })
            | (_, false) => some world
          else none
  | .expire number =>
      if world.alive number then some (world.modify number fun vm => { vm with alive := false })
      else none
  | .runCallback registry number =>
      match world.vm number with
      | none => none
      | some vm =>
          if vm.alive = false ∧ vm.callbacks.contains registry then
            some ((world.setRegister registry
              ((world.map_ registry).removeItemCallback (Membership.key vm.handle_))).modify number
                fun vm => { vm with callbacks := vm.callbacks.erase registry })
          else none
  | .sendByVmId sender targetVmId charMsg size =>
      (sendByVmId serviceName world sender targetVmId charMsg size).map Prod.snd

/-- The histories of VM creations and destructions, with calls in between. -/
def machine : Machine (World Service) (Event Service) where
  init := { map_ := fun _ => {}, vm := fun _ => none, created := 0 }
  step := step serviceName

end Operations

/-- The handle that a constructor gives its context. -/
def Event.handle_ : Event Service → Option UInt32
  | .construct _ handle_ _ => some handle_
  | _ => none

/-- The handles given out so far, in the order of construction. -/
def handles (events : List (Event Service)) : List UInt32 := events.filterMap Event.handle_

/-- A living VM that has been checked in with `ContextMgr` has this integer as its
handle. -/
def Addressed (events : List (Event Service)) (world : World Service) (id : Int) (number : Nat) :
    Prop :=
  .checkIn .contextMgr number ∈ events ∧
    ∃ vm, world.vm number = some vm ∧ vm.alive = true ∧ (vm.handle_.toNat : Int) = id

/-- The call pushes its message to the VM with this handle and to no other, and returns
whether there is one. -/
def Exact (serviceName : Service → String) (events : List (Event Service)) (world : World Service)
    (sender : Nat) (self : Vm Service) (targetVmId : Int64) (charMsg : Option (List UInt8))
    (size : Int64) : Prop :=
  ∃ result next, sendByVmId serviceName world sender targetVmId charMsg size =
      some (result, next) ∧
    (result = true ↔ ∃ target, Addressed events world targetVmId.toInt target) ∧
    (∀ target, Addressed events world targetVmId.toInt target →
      next.queue target =
        world.queue target ++ [luaMessage (serviceName self.service) self charMsg size]) ∧
    ∀ number, ¬ Addressed events world targetVmId.toInt number →
      next.queue number = world.queue number

/-- What the registries and the contexts have to do with the history: an entry is that of a
context that has been checked in and is found under its key, and a living context that has
been checked in has its entry. -/
structure Registered (events : List (Event Service)) (world : World Service) : Prop where
  created : (handles events).length = world.created
  fresh : ∀ number, world.created ≤ number → world.vm number = none
  handle_ : ∀ number vm, world.vm number = some vm → (handles events)[number]? = some vm.handle_
  known : ∀ registry number, .checkIn registry number ∈ events → number < world.created
  entry : ∀ registry (key : Int32) number, (world.map_ registry).map_[key]? = some number →
    .checkIn registry number ∈ events ∧
      ∃ vm, world.vm number = some vm ∧ Membership.key vm.handle_ = key
  entered : ∀ registry number vm, .checkIn registry number ∈ events →
    world.vm number = some vm → vm.alive = true →
      (world.map_ registry).map_[Membership.key vm.handle_]? = some number

variable {serviceName : Service → String} {events : List (Event Service)}
  {world next : World Service}

theorem of_modify {number other : Nat} {function : Vm Service → Vm Service} {after : Vm Service}
    (found : (world.modify number function).vm other = some after) :
    ∃ before, world.vm other = some before ∧ (after = before ∨ after = function before) := by
  unfold World.modify at found
  by_cases same : other = number
  · subst same
    simp only [Function.update_self] at found
    obtain ⟨before, present, rfl⟩ := Option.map_eq_some_iff.mp found
    exact ⟨before, present, Or.inr rfl⟩
  · simp only [Function.update_of_ne same] at found
    exact ⟨after, found, Or.inl rfl⟩

theorem modify_of_some {other : Nat} (number : Nat) (function : Vm Service → Vm Service)
    {before : Vm Service} (present : world.vm other = some before) :
    ∃ after, (world.modify number function).vm other = some after ∧
      (after = before ∨ after = function before) := by
  unfold World.modify
  by_cases same : other = number
  · subst same
    simp only [Function.update_self, present]
    exact ⟨_, rfl, Or.inr rfl⟩
  · simp only [Function.update_of_ne same]
    exact ⟨before, present, Or.inl rfl⟩

/-- The same key is the same handle. -/
theorem key_inj {first second : UInt32} (same : Membership.key first = Membership.key second) :
    first = second :=
  congrArg Int32.toUInt32 same

/-- The key that an id is converted to is that of the handle with the same low bits. -/
theorem key_eq_iff (handle_ : UInt32) (id : Int64) :
    Membership.key handle_ = id.toInt32 ↔ (handle_.toNat : Int) = id.toInt % 2 ^ 32 := by
  have unsigned : (Membership.key handle_).toInt = (handle_.toNat : Int).bmod (2 ^ 32) :=
    BitVec.toInt_eq_toNat_bmod _
  have bound := handle_.toNat_lt
  rw [← Int32.toInt_inj, unsigned, Int64.toInt_toInt32, Int.bmod_def, Int.bmod_def]
  omega

/-- With pairwise distinct handles a handle names one context. -/
theorem Registered.unique (registered : Registered events world) (distinct : (handles events).Nodup)
    {first second : Nat} {vm other : Vm Service} (foundFirst : world.vm first = some vm)
    (foundSecond : world.vm second = some other)
    (same : Membership.key vm.handle_ = Membership.key other.handle_) : first = second := by
  have left := registered.handle_ first vm foundFirst
  have right := registered.handle_ second other foundSecond
  rw [← key_inj same] at right
  obtain ⟨inside, _⟩ := List.getElem?_eq_some_iff.mp left
  exact (List.getElem?_inj inside distinct).mp (left.trans right.symm)

theorem handles_append (events : List (Event Service)) (event : Event Service) :
    handles (events ++ [event]) = handles events ++ event.handle_.toList := by
  unfold handles
  rw [List.filterMap_append]
  cases event <;> rfl

/-- An event that neither constructs a context nor checks one in. -/
theorem Registered.append (registered : Registered events world) (event : Event Service)
    (noHandle : event.handle_ = none)
    (noCheckIn : ∀ registry number, event ≠ .checkIn registry number) :
    Registered (events ++ [event]) world := by
  have sameHandles : handles (events ++ [event]) = handles events := by
    rw [handles_append, noHandle]
    exact List.append_nil _
  have before {registry : Registry Service} {number : Nat}
      (member : .checkIn registry number ∈ events ++ [event]) :
      .checkIn registry number ∈ events := by
    rcases List.mem_append.mp member with old | new
    · exact old
    · exact absurd (List.mem_singleton.mp new).symm (noCheckIn registry number)
  exact
    { created := sameHandles ▸ registered.created
      fresh := registered.fresh
      handle_ := sameHandles ▸ registered.handle_
      known := fun registry number member => registered.known registry number (before member)
      entry := fun registry key number found =>
        (registered.entry registry key number found).imp_left (List.mem_append_left [event])
      entered := fun registry number vm member =>
        registered.entered registry number vm (before member) }

/-- A context is changed, but not its handle, and it is not brought back to life. -/
theorem Registered.modify (registered : Registered events world) (number : Nat)
    (function : Vm Service → Vm Service) (sameHandle : ∀ vm, (function vm).handle_ = vm.handle_)
    (noBirth : ∀ vm, (function vm).alive = true → vm.alive = true) :
    Registered events (world.modify number function) where
  created := registered.created
  fresh := by
    intro other later
    by_contra present
    obtain ⟨after, found⟩ := Option.ne_none_iff_exists'.mp present
    obtain ⟨before, was, _⟩ := of_modify found
    have absent := registered.fresh other later
    rw [was] at absent
    cases absent
  handle_ := by
    intro other after found
    obtain ⟨before, was, rfl | rfl⟩ := of_modify found
    · exact registered.handle_ other _ was
    · rw [sameHandle]
      exact registered.handle_ other before was
  known := registered.known
  entry := by
    intro registry key other found
    obtain ⟨member, before, was, sameKey⟩ := registered.entry registry key other found
    obtain ⟨after, is, rfl | rfl⟩ := modify_of_some number function was
    · exact ⟨member, _, is, sameKey⟩
    · exact ⟨member, _, is, (congrArg Membership.key (sameHandle before)).trans sameKey⟩
  entered := by
    intro registry other after member found living
    obtain ⟨before, was, rfl | rfl⟩ := of_modify found
    · exact registered.entered registry other _ member was living
    · rw [sameHandle]
      exact registered.entered registry other before member was (noBirth before living)

theorem Registered.construct (registered : Registered events world) (service : Service)
    (handle_ : UInt32) (sessionId : Int32) :
    Registered (events ++ [.construct service handle_ sessionId])
      (world.construct service handle_ sessionId) := by
  have newHandle : handles (events ++ [.construct service handle_ sessionId]) =
      handles events ++ [handle_] := handles_append events _
  have before {registry : Registry Service} {number : Nat}
      (member : .checkIn registry number ∈ events ++ [.construct service handle_ sessionId]) :
      .checkIn registry number ∈ events := by
    rcases List.mem_append.mp member with old | new
    · exact old
    · cases List.mem_singleton.mp new
  have other {registry : Registry Service} {number : Nat}
      (member : .checkIn registry number ∈ events) : number ≠ world.created :=
    Nat.ne_of_lt (registered.known registry number member)
  have same {number : Nat} (old : number ≠ world.created) :
      (world.construct service handle_ sessionId).vm number = world.vm number :=
    Function.update_of_ne old _ _
  refine ⟨?_, ?_, ?_, ?_, ?_, ?_⟩
  · rw [newHandle, List.length_append, registered.created]
    rfl
  · intro number later
    have larger : number ≠ world.created := Nat.ne_of_gt later
    rw [same larger]
    exact registered.fresh number (Nat.le_of_succ_le later)
  · intro number vm found
    rw [newHandle]
    by_cases new : number = world.created
    · subst new
      have made : (world.construct service handle_ sessionId).vm world.created = some
          { service, handle_, sessionId, context := {}, alive := true, callbacks := [] } :=
        Function.update_self ..
      obtain rfl := Option.some.inj (made.symm.trans found)
      rw [← registered.created]
      exact List.getElem?_concat_length
    · rw [same new] at found
      have old := registered.handle_ number vm found
      exact List.getElem?_append_left (List.getElem?_eq_some_iff.mp old).choose ▸ old
  · intro registry number member
    exact Nat.lt_succ_of_lt (registered.known registry number (before member))
  · intro registry key number found
    obtain ⟨member, vm, is, sameKey⟩ := registered.entry registry key number found
    refine ⟨List.mem_append_left _ member, vm, ?_, sameKey⟩
    rw [same (other member)]
    exact is
  · intro registry number vm member found living
    rw [same (other (before member))] at found
    exact registered.entered registry number vm (before member) found living

theorem Registered.startSession (registered : Registered events world) (sender : Nat) :
    Registered events (world.startSession sender) :=
  registered.modify sender _ (fun _ => rfl) fun _ => id

theorem Registered.pushMsg (registered : Registered events world) (target : Nat) (msg : Mail) :
    Registered events (world.pushMsg target msg) :=
  registered.modify target _ (fun _ => rfl) fun _ => id

/-- What a call on a living VM does. -/
theorem sendByVmId_cases (serviceName : Service → String) {sender : Nat} {self : Vm Service}
    (found : world.vm sender = some self) (living : self.alive = true) (targetVmId : Int64)
    (charMsg : Option (List UInt8)) (size : Int64) :
    (∃ target, (world.map_ .contextMgr).fetch (world.startSession sender).alive
        targetVmId.toInt32 = some target ∧
      sendByVmId serviceName world sender targetVmId charMsg size =
        some (true, (world.startSession sender).pushMsg target
          (luaMessage (serviceName self.service) self charMsg size))) ∨
    ((world.map_ .contextMgr).fetch (world.startSession sender).alive
        targetVmId.toInt32 = none ∧
      sendByVmId serviceName world sender targetVmId charMsg size =
        some (false, world.startSession sender)) := by
  have sameMap : (world.startSession sender).map_ = world.map_ := rfl
  unfold sendByVmId
  simp only [found, living, ↓reduceIte, sameMap]
  cases fetched : (world.map_ .contextMgr).fetch (world.startSession sender).alive
      targetVmId.toInt32 with
  | some target => exact Or.inl ⟨target, rfl, rfl⟩
  | none => exact Or.inr ⟨rfl, rfl⟩

theorem Registered.sendByVmId (registered : Registered events world) {sender : Nat}
    {targetVmId : Int64} {charMsg : Option (List UInt8)} {size : Int64} {result : Bool}
    (sent : sendByVmId serviceName world sender targetVmId charMsg size = some (result, next)) :
    Registered events next := by
  have called : ∃ self, world.vm sender = some self ∧ self.alive = true := by
    unfold Address.sendByVmId at sent
    split at sent
    · cases sent
    · next self found =>
        split at sent
        · next living => exact ⟨self, found, living⟩
        · cases sent
  obtain ⟨self, found, living⟩ := called
  have started := registered.startSession sender
  rcases sendByVmId_cases serviceName found living targetVmId charMsg size with
    ⟨target, _, ran⟩ | ⟨_, ran⟩
  · cases ran.symm.trans sent
    exact started.pushMsg target _
  · cases ran.symm.trans sent
    exact started

theorem mem_append_checkIn {registry other : Registry Service} {number another : Nat}
    (member : .checkIn other another ∈ events ++ [.checkIn registry number]) :
    .checkIn other another ∈ events ∨ other = registry ∧ another = number := by
  rcases List.mem_append.mp member with old | new
  · exact Or.inl old
  · cases List.mem_singleton.mp new
    exact Or.inr ⟨rfl, rfl⟩

theorem Registered.known_checkIn (registered : Registered events world)
    {registry other : Registry Service} {number another : Nat} {vm : Vm Service}
    (found : world.vm number = some vm)
    (member : .checkIn other another ∈ events ++ [.checkIn registry number]) :
    another < world.created := by
  rcases mem_append_checkIn member with old | ⟨rfl, rfl⟩
  · exact registered.known other another old
  · by_contra late
    rw [registered.fresh another (Nat.not_lt.mp late)] at found
    cases found

/-- A context has been checked in once more: it has its entry. -/
theorem Registered.again (registered : Registered events world) {registry : Registry Service}
    {number : Nat} {vm : Vm Service} (found : world.vm number = some vm)
    (present : (world.map_ registry).map_[Membership.key vm.handle_]? = some number) :
    Registered (events ++ [.checkIn registry number]) world := by
  have sameHandles : handles (events ++ [.checkIn registry number]) = handles events :=
    (handles_append events _).trans (List.append_nil _)
  exact
    { created := sameHandles ▸ registered.created
      fresh := registered.fresh
      handle_ := sameHandles ▸ registered.handle_
      known := fun _ _ member => registered.known_checkIn found member
      entry := fun other key another entry =>
        (registered.entry other key another entry).imp_left (List.mem_append_left _)
      entered := by
        intro other another living member is alive
        rcases mem_append_checkIn member with old | ⟨rfl, rfl⟩
        · exact registered.entered other another living old is alive
        · cases found.symm.trans is
          exact present }

theorem modify_vm (number other : Nat) (function : Vm Service → Vm Service) :
    (world.modify number function).vm other =
      if other = number then (world.vm other).map function else world.vm other := by
  unfold World.modify
  by_cases same : other = number
  · subst same
    rw [if_pos rfl]
    exact Function.update_self ..
  · rw [if_neg same]
    exact Function.update_of_ne same ..

theorem alive_startSession (sender : Nat) : (world.startSession sender).alive = world.alive := by
  funext number
  unfold World.alive World.startSession
  rw [modify_vm]
  by_cases same : number = sender
  · rw [if_pos same]
    cases world.vm number <;> rfl
  · rw [if_neg same]

theorem queue_startSession (sender number : Nat) :
    (world.startSession sender).queue number = world.queue number := by
  unfold World.queue World.startSession
  rw [modify_vm]
  by_cases same : number = sender
  · rw [if_pos same]
    cases world.vm number <;> rfl
  · rw [if_neg same]

theorem queue_pushMsg {target : Nat} {vm : Vm Service} (found : world.vm target = some vm)
    (msg : Mail) : (world.pushMsg target msg).queue target = world.queue target ++ [msg] := by
  unfold World.queue World.pushMsg
  rw [modify_vm, if_pos rfl, found]
  rfl

theorem queue_pushMsg_of_ne {target number : Nat} (other : number ≠ target) (msg : Mail) :
    (world.pushMsg target msg).queue number = world.queue number := by
  unfold World.queue World.pushMsg
  rw [modify_vm, if_neg other]

/-- What `fetch` finds under an id: the living context that has been checked in and whose
handle has the same low bits. -/
theorem Registered.fetch_iff (registered : Registered events world) (sender : Nat) (id : Int64)
    (target : Nat) :
    (world.map_ .contextMgr).fetch (world.startSession sender).alive id.toInt32 = some target ↔
      Addressed events world (id.toInt % 2 ^ 32) target := by
  rw [alive_startSession]
  constructor
  · intro fetched
    unfold Register.fetch at fetched
    cases present : (world.map_ .contextMgr).map_[id.toInt32]? with
    | none =>
        rw [present] at fetched
        cases fetched
    | some weak =>
        rw [present] at fetched
        obtain ⟨living, rfl⟩ := Register.lock_eq_some.mp fetched
        obtain ⟨member, vm, found, sameKey⟩ := registered.entry .contextMgr _ weak present
        unfold World.alive at living
        rw [found] at living
        exact ⟨member, vm, found, living, (key_eq_iff vm.handle_ id).mp sameKey⟩
  · rintro ⟨member, vm, found, living, sameId⟩
    have present := registered.entered .contextMgr target vm member found living
    rw [(key_eq_iff vm.handle_ id).mpr sameId] at present
    refine Register.fetch_eq_some present ?_
    unfold World.alive
    rw [found]
    exact living

theorem Registered.addressed_unique (registered : Registered events world)
    (distinct : (handles events).Nodup) {id : Int} {first second : Nat}
    (left : Addressed events world id first) (right : Addressed events world id second) :
    first = second := by
  obtain ⟨_, vm, found, _, sameId⟩ := left
  obtain ⟨_, other, foundOther, _, sameOther⟩ := right
  have same : vm.handle_ = other.handle_ :=
    UInt32.toNat_inj.mp (Int.ofNat.inj (sameId.trans sameOther.symm))
  exact registered.unique distinct found foundOther (congrArg Membership.key same)

/-- A call finds the VM whose handle has the low bits of the id: it pushes its message to
that one and to no other. -/
theorem sends_modulo (registered : Registered events world)
    (distinct : (handles events).Nodup) (serviceName : Service → String) {sender : Nat}
    {self : Vm Service} (found : world.vm sender = some self) (living : self.alive = true)
    (targetVmId : Int64) (charMsg : Option (List UInt8)) (size : Int64) :
    ∃ result next, sendByVmId serviceName world sender targetVmId charMsg size =
        some (result, next) ∧
      (result = true ↔ ∃ target, Addressed events world (targetVmId.toInt % 2 ^ 32) target) ∧
      (∀ target, Addressed events world (targetVmId.toInt % 2 ^ 32) target →
        next.queue target =
          world.queue target ++ [luaMessage (serviceName self.service) self charMsg size]) ∧
      ∀ number, ¬ Addressed events world (targetVmId.toInt % 2 ^ 32) number →
        next.queue number = world.queue number := by
  rcases sendByVmId_cases serviceName found living targetVmId charMsg size with
    ⟨target, fetched, sent⟩ | ⟨nobody, sent⟩
  · have addressed := (registered.fetch_iff sender targetVmId target).mp fetched
    refine ⟨true, _, sent, ⟨fun _ => ⟨target, addressed⟩, fun _ => rfl⟩, ?_, ?_⟩
    · intro other another
      obtain rfl := registered.addressed_unique distinct addressed another
      obtain ⟨_, vm, is, _⟩ := addressed
      obtain ⟨after, isAfter, _⟩ := modify_of_some sender
        (fun self => { self with sessionId := newSession self.sessionId }) is
      have present : (world.startSession sender).vm target = some after := isAfter
      rw [queue_pushMsg present, queue_startSession]
    · intro number unaddressed
      have other : number ≠ target := fun same => unaddressed (same ▸ addressed)
      rw [queue_pushMsg_of_ne other, queue_startSession]
  · have none_ (target : Nat) : ¬ Addressed events world (targetVmId.toInt % 2 ^ 32) target :=
      fun addressed => by
        have fetched := (registered.fetch_iff sender targetVmId target).mpr addressed
        rw [nobody] at fetched
        cases fetched
    refine ⟨false, _, sent, ⟨nofun, fun ⟨target, addressed⟩ => absurd addressed (none_ target)⟩,
      fun target addressed => absurd addressed (none_ target), fun number _ => ?_⟩
    rw [queue_startSession]

/-- A handle is unsigned and has 32 bits. -/
theorem addressed_range {id : Int} {number : Nat} (addressed : Addressed events world id number) :
    0 ≤ id ∧ id < 2 ^ 32 := by
  obtain ⟨_, vm, _, _, same⟩ := addressed
  have bound := vm.handle_.toNat_lt
  omega

variable [DecidableEq Service]

theorem step_checkIn {registry : Registry Service} {number : Nat}
    (stepped : step serviceName world (.checkIn registry number) = some next) :
    ∃ vm, world.vm number = some vm ∧ vm.alive = true ∧
      ((∃ other, (world.map_ registry).map_[Membership.key vm.handle_]? = some other ∧
        next = world) ∨
      ((world.map_ registry).map_[Membership.key vm.handle_]? = none ∧
        next = (world.setRegister registry
          { map_ := (world.map_ registry).map_.insert (Membership.key vm.handle_) number }).modify
            number fun vm => { vm with callbacks := vm.callbacks ++ [registry] })) := by
  simp only [step] at stepped
  cases found : world.vm number with
  | none =>
      rw [found] at stepped
      cases stepped
  | some vm =>
      simp only [found] at stepped
      by_cases living : vm.alive = true
      · rw [if_pos living] at stepped
        refine ⟨vm, rfl, living, ?_⟩
        rcases (world.map_ registry).checkIn_cases (fun _ => Membership.key vm.handle_) number with
          ⟨other, taken, checked⟩ | ⟨free, checked⟩
        · rw [checked] at stepped
          exact Or.inl ⟨other, taken, (Option.some.inj stepped).symm⟩
        · rw [checked] at stepped
          exact Or.inr ⟨free, (Option.some.inj stepped).symm⟩
      · rw [if_neg living] at stepped
        cases stepped

/-- A new entry under a free key. -/
theorem Registered.insert (registered : Registered events world) {registry : Registry Service}
    {number : Nat} {vm : Vm Service} (found : world.vm number = some vm)
    (free : (world.map_ registry).map_[Membership.key vm.handle_]? = none) :
    Registered (events ++ [.checkIn registry number]) (world.setRegister registry
      { map_ := (world.map_ registry).map_.insert (Membership.key vm.handle_) number }) where
  created := by
    rw [handles_append]
    exact (congrArg List.length (List.append_nil _)).trans registered.created
  fresh := registered.fresh
  handle_ := by
    rw [handles_append]
    exact (List.append_nil (handles events)).symm ▸ registered.handle_
  known := fun _ _ member => registered.known_checkIn found member
  entry := by
    intro other key another present
    unfold World.setRegister at present
    by_cases same : other = registry
    · subst same
      simp only [Function.update_self] at present
      by_cases new : key = Membership.key vm.handle_
      · subst new
        rw [Std.TreeMap.getElem?_insert_self] at present
        obtain rfl := Option.some.inj present
        exact ⟨List.mem_append_right _ List.mem_cons_self, vm, found, rfl⟩
      · rw [Register.getElem?_insert_of_ne _ _ new] at present
        exact (registered.entry other key another present).imp_left (List.mem_append_left _)
    · simp only [Function.update_of_ne same] at present
      exact (registered.entry other key another present).imp_left (List.mem_append_left _)
  entered := by
    intro other another living member is alive
    unfold World.setRegister
    rcases mem_append_checkIn member with old | ⟨rfl, rfl⟩
    · have present := registered.entered other another living old is alive
      by_cases same : other = registry
      · subst same
        simp only [Function.update_self]
        rw [Register.getElem?_insert_of_ne]
        · exact present
        · intro taken
          rw [taken, free] at present
          cases present
      · simp only [Function.update_of_ne same]
        exact present
    · cases found.symm.trans is
      simp only [Function.update_self]
      exact Std.TreeMap.getElem?_insert_self

/-- A context that lives is checked in: its key is free, or the entry is its own. -/
theorem Registered.checkIn (registered : Registered events world)
    (distinct : (handles events).Nodup) {registry : Registry Service} {number : Nat}
    (stepped : step serviceName world (.checkIn registry number) = some next) :
    Registered (events ++ [.checkIn registry number]) next := by
  obtain ⟨vm, found, _, ⟨other, taken, rfl⟩ | ⟨free, rfl⟩⟩ := step_checkIn stepped
  · obtain ⟨_, holder, is, sameKey⟩ := registered.entry registry _ other taken
    obtain rfl := registered.unique distinct is found sameKey
    exact registered.again found taken
  · exact (registered.insert found free).modify number _ (fun _ => rfl) fun _ => id

/-- The entry of a dead context is erased. -/
theorem Registered.erase (registered : Registered events world)
    (distinct : (handles events).Nodup) {number : Nat} {vm : Vm Service}
    (found : world.vm number = some vm) (dead : vm.alive = false) (registry : Registry Service) :
    Registered events (world.setRegister registry
      ((world.map_ registry).removeItemCallback (Membership.key vm.handle_))) where
  created := registered.created
  fresh := registered.fresh
  handle_ := registered.handle_
  known := registered.known
  entry := by
    intro other key entry present
    refine registered.entry other key entry ?_
    unfold World.setRegister at present
    by_cases same : other = registry
    · subst same
      simp only [Function.update_self, Register.removeItemCallback] at present
      rw [Std.TreeMap.getElem?_erase] at present
      split at present
      · cases present
      · exact present
    · simp only [Function.update_of_ne same] at present
      exact present
  entered := by
    intro other entry living member is alive
    have present := registered.entered other entry living member is alive
    unfold World.setRegister
    by_cases same : other = registry
    · subst same
      have apart : Membership.key vm.handle_ ≠ Membership.key living.handle_ := by
        intro sameKey
        obtain rfl := registered.unique distinct found is sameKey
        cases found.symm.trans is
        rw [dead] at alive
        cases alive
      simp only [Function.update_self, Register.removeItemCallback]
      rw [Std.TreeMap.getElem?_erase, if_neg]
      · exact present
      · exact fun equal => apart (Std.LawfulEqCmp.compare_eq_iff_eq.mp equal)
    · simp only [Function.update_of_ne same]
      exact present

/-- One more event. -/
theorem Registered.step (registered : Registered events world)
    (distinct : (handles events).Nodup) {event : Event Service}
    (stepped : step serviceName world event = some next) :
    Registered (events ++ [event]) next := by
  cases event with
  | construct service handle_ sessionId =>
      cases stepped
      exact registered.construct service handle_ sessionId
  | checkIn registry number => exact registered.checkIn distinct stepped
  | expire number =>
      simp only [Address.step] at stepped
      split at stepped
      · cases stepped
        have died : Registered events
            (world.modify number fun vm => { vm with alive := false }) :=
          registered.modify number _ (fun _ => rfl) nofun
        exact died.append (.expire number) rfl nofun
      · cases stepped
  | runCallback registry number =>
      simp only [Address.step] at stepped
      split at stepped
      · cases stepped
      · next vm found =>
          split at stepped
          · next dead =>
              cases stepped
              have erased := registered.erase distinct found dead.1 registry
              have ran := erased.modify number
                (fun vm => { vm with callbacks := vm.callbacks.erase registry })
                (fun _ => rfl) fun _ => id
              exact ran.append (.runCallback registry number) rfl nofun
          · cases stepped
  | sendByVmId sender targetVmId charMsg size =>
      obtain ⟨⟨result, after⟩, sent, rfl⟩ := Option.map_eq_some_iff.mp stepped
      exact (registered.sendByVmId sent).append (.sendByVmId sender targetVmId charMsg size)
        rfl nofun

theorem registered_initial : Registered [] (machine serviceName).init where
  created := rfl
  fresh := fun _ _ => rfl
  handle_ := by
    intro number vm found
    cases found
  known := by
    intro registry number member
    cases member
  entry := by
    intro registry key number found
    have empty : (∅ : Std.TreeMap Int32 Nat compare)[key]? = some number := found
    rw [Std.TreeMap.getElem?_emptyc] at empty
    cases empty
  entered := by
    intro registry number vm member
    cases member

theorem registered_of_run {events : List (Event Service)} {world : World Service}
    (ran : (machine serviceName).run events = some world) (distinct : (handles events).Nodup) :
    Registered events world := by
  refine (machine serviceName).run_history_invariant
    (fun events world => (handles events).Nodup → Registered events world)
    (fun _ => registered_initial) ?_ events world ran distinct
  intro events world event next registered stepped distinct
  rw [handles_append] at distinct
  have before := (List.nodup_append.mp distinct).1
  exact (registered before).step before stepped

/-- **`sendByVmId` addresses exactly the VM with the given id if and only if the id fits in
a handle, or no living VM has the handle to which the id is cut.** -/
theorem exact_iff (serviceName : Service → String) (events : List (Event Service))
    (world : World Service) (ran : (machine serviceName).run events = some world)
    (distinct : (handles events).Nodup) (sender : Nat) (self : Vm Service)
    (found : world.vm sender = some self) (living : self.alive = true) (targetVmId : Int64)
    (charMsg : Option (List UInt8)) (size : Int64) :
    Exact serviceName events world sender self targetVmId charMsg size ↔
      0 ≤ targetVmId.toInt ∧ targetVmId.toInt < 2 ^ 32 ∨
        ∀ number, ¬ Addressed events world (targetVmId.toInt % 2 ^ 32) number := by
  have registered := registered_of_run ran distinct
  obtain ⟨result, next, sent, returned, pushed, kept⟩ :=
    sends_modulo registered distinct serviceName found living targetVmId charMsg size
  constructor
  · intro exact_
    by_contra fails
    obtain ⟨outside, reached⟩ := not_or.mp fails
    obtain ⟨target, addressed⟩ := not_forall_not.mp reached
    obtain ⟨result', next', sent', returned', _⟩ := exact_
    cases sent.symm.trans sent'
    obtain ⟨_, exactly⟩ := returned'.mp (returned.mpr ⟨target, addressed⟩)
    exact outside (addressed_range exactly)
  · rintro (inside | nobody)
    · have same : targetVmId.toInt % 2 ^ 32 = targetVmId.toInt :=
        Int.emod_eq_of_lt inside.1 inside.2
      rw [same] at returned pushed kept
      exact ⟨result, next, sent, returned, pushed, kept⟩
    · have none_ (target : Nat) : ¬ Addressed events world targetVmId.toInt target := by
        intro addressed
        have range := addressed_range addressed
        refine nobody target ?_
        rw [Int.emod_eq_of_lt range.1 range.2]
        exact addressed
      refine ⟨result, next, sent, ?_, fun target addressed => absurd addressed (none_ target),
        fun number _ => kept number (nobody number)⟩
      rw [returned]
      exact ⟨fun ⟨target, addressed⟩ => absurd addressed (nobody target),
        fun ⟨target, addressed⟩ => absurd addressed (none_ target)⟩

/-- Two VMs of two services, the handles 1 and 2, both checked in as `__new__` does it. -/
def twoVms : List (Event Bool) :=
  [.construct false 1 0, .checkIn (.service false) 0, .checkIn .contextMgr 0,
    .construct true 2 0, .checkIn (.service true) 1, .checkIn .contextMgr 1]

/-- **An id above `2 ^ 32` reaches a VM**: the second VM sends to 4294967297, and the message
goes to the first one. -/
theorem farId_reaches :
    ∃ world self, (machine fun _ => "s").run twoVms = some world ∧ (handles twoVms).Nodup ∧
      world.vm 1 = some self ∧ self.alive = true ∧
      (∃ next, sendByVmId (fun _ => "s") world 1 4294967297 (some []) 0 = some (true, next) ∧
        world.queue 0 = [] ∧ (next.queue 0).length = 1) ∧
      ¬ Exact (fun _ => "s") twoVms world 1 self 4294967297 (some []) 0 := by
  refine ⟨_, _, rfl, by decide, rfl, rfl, ⟨_, rfl, rfl, rfl⟩, ?_⟩
  rintro ⟨result, next, sent, returned, _⟩
  have reached := congrArg (Option.map Prod.fst) sent
  obtain ⟨target, addressed⟩ := returned.mp (Option.some.inj reached).symm
  exact absurd (addressed_range addressed).2 (by decide)

theorem exact_iff_twoVms :
    ∃ world self, (machine fun _ => "s").run twoVms = some world ∧
      world.vm 1 = some self ∧ Exact (fun _ => "s") twoVms world 1 self 1 (some []) 0 := by
  refine ⟨_, _, rfl, rfl, ?_⟩
  refine (exact_iff (fun _ => "s") twoVms _ rfl (by decide) 1 _ rfl rfl 1 (some []) 0).mpr ?_
  exact Or.inl (by decide)

end Address

end EasyLua
