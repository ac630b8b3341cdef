import EasyLua.Foundation.Custody
import EasyLua.Foundation.Machine
import EasyLua.Socket.Accept

/-!
# The descriptors of the socket objects

`__init__` and `accept` get descriptors from the operating system, `close` and `__gc` give them
back. What `accept` gets it hands to the class as an integer, and it is up to the class to call
an `__init__` that takes it over. The calls to the operating system are logged, and the
descriptors are its slots on loan.
-/

namespace EasyLua

namespace Socket

namespace Descriptors

open Lease

/-- `INVALID_SOCKET`. -/
def INVALID_SOCKET : Int64 := -1

def SOCK_STREAM : Int32 := 1

/-- The fields of a `PySocketSockObject`. All values that `sock_timeout` gets are whole seconds. -/
structure PySocketSockObject extends Sock where
  sock_timeout : Int

/-- `defaulttimeout`, which nothing assigns. -/
def defaulttimeout : Int := -1

/-- `__new__` in the memory that `new` returns. -/
def new (memory : Sock) : PySocketSockObject :=
  { memory with sock_fd := -1, sock_timeout := -1 }

/-- `init_sockobject`, which does not touch the mode of the socket, since `defaulttimeout` is
negative. -/
def init_sockobject (fd : Int64) (family type proto : Int32) : PySocketSockObject where
  sock_fd := fd
  sock_family := family
  sock_type := type
  sock_proto := proto
  sock_timeout := defaulttimeout

/-- What `__init__` reads from its arguments. -/
structure Arguments where
  family : Int32
  type : Int32
  proto : Int32
  fd : Option Int64

/-- An integer that can be left out; none when it raises an error. -/
def argument (arg : Value) (default : Int32) : Option Int32 :=
  match arg with
  | .nil => some default
  | .integer n => some n.toInt32
  | _ => none

/-- The arguments of `__init__`; none when one of them raises an error. -/
def Arguments.read (family type proto fd : Value) : Option Arguments := do
  let family ← argument family (Int32.ofNat AF_INET.toNat)
  let type ← argument type SOCK_STREAM
  let proto ← argument proto 0
  match fd with
  | .nil => some ⟨family, type, proto, none⟩
  | .integer fd => some ⟨family, type, proto, some fd.toInt32.toInt64⟩
  | _ => none

/-- The objects of the process by their address, the descriptors that calls of the class by
`accept` carry and that no object has taken over yet, and the calls to the operating system. -/
structure Process where
  objects : Nat → Option PySocketSockObject
  carried : Nat → Option Int64
  calls : List (Call Int64 Unit)

namespace Process

/-- The object at an address is changed, made or deleted. -/
def put (process : Process) (address : Nat) (object : Option PySocketSockObject) : Process :=
  { process with objects := Function.update process.objects address object }

/-- `socket` or `accept` has returned a descriptor. -/
def returned (process : Process) (fd : Int64) : Process :=
  { process with calls := .take fd () :: process.calls }

/-- `SOCKETCLOSE`. -/
def SOCKETCLOSE (process : Process) (fd : Int64) : Process :=
  { process with calls := .release fd :: process.calls }

/-- A call of the class carries a descriptor, or does no more. -/
def carry (process : Process) (call : Nat) (fd : Option Int64) : Process :=
  { process with carried := Function.update process.carried call fd }

/-- An object has taken a descriptor over from the call that carried it. -/
def takeOver (process : Process) (fd : Int64) : Process :=
  { process with carried := fun call =>
      if process.carried call = some fd then none else process.carried call }

/-- `__init__`, where `answer` is what `socket` returns. An error leaves all as it is. There is
no next state when `socket` returns a descriptor that is open. -/
def init (process : Process) (address : Nat) (arguments : Option Arguments) (answer : Int64) :
    Option Process :=
  match arguments with
  | none => some process
  | some ⟨family, type, proto, some fd⟩ =>
      some ((process.takeOver fd).put address (some (init_sockobject fd family type proto)))
  | some ⟨family, type, proto, none⟩ =>
      if answer = INVALID_SOCKET then some process
      else if OnLoan process.calls answer then none
      else some ((process.returned answer).put address
        (some (init_sockobject answer family type proto)))

/-- `sock_accept` up to the call of the class, where `answer` is what `accept` returns and
`callable` is whether the metatable of the class has a `__call`. -/
def sock_accept (process : Process) (call : Nat) (answer : Int64) (callable : Bool) :
    Option Process :=
  if answer = INVALID_SOCKET then some process
  else if OnLoan process.calls answer then none
  else if callable then some ((process.returned answer).carry call (some answer))
  else some ((process.returned answer).SOCKETCLOSE answer)

/-- `sock_close`. -/
def sock_close (process : Process) (address : Nat) (s : PySocketSockObject) : Process :=
  if s.sock_fd ≠ -1 then
    (process.put address (some { s with sock_fd := -1 })).SOCKETCLOSE s.sock_fd
  else process

/-- `sock_setblocking`. -/
def sock_setblocking (process : Process) (address : Nat) (s : PySocketSockObject)
    (block : Int32) : Process :=
  process.put address (some { s with sock_timeout := if block ≠ 0 then -1 else 0 })

/-- `__gc`. -/
def gc (process : Process) (address : Nat) (s : PySocketSockObject) : Process :=
  if s.sock_fd ≠ -1 then (process.SOCKETCLOSE s.sock_fd).put address none
  else process.put address none

end Process

/-- What is called, for the methods on the object at an address. -/
inductive Event
  | new (address : Nat) (memory : Sock)
  | init (address : Nat) (family type proto fd : Value) (answer : Int64)
  | sock_accept (address call : Nat) (answer : Int64) (callable : Bool)
  /-- The class that `accept` has called returns or raises an error. -/
  | called (call : Nat)
  | sock_close (address : Nat)
  | sock_setblocking (address : Nat) (block : Int32)
  | gc (address : Nat)

/-- A method needs an object that has not been deleted, and what is new needs a place that is
free. -/
def step (process : Process) : Event → Option Process
  | .new address memory =>
      match process.objects address with
      | some _ => none
      | none => some (process.put address (some (new memory)))
  | .init address family type proto fd answer =>
      (process.objects address).bind fun _ =>
        process.init address (Arguments.read family type proto fd) answer
  | .sock_accept address call answer callable =>
      match process.objects address, process.carried call with
      | some _, none => process.sock_accept call answer callable
      | _, _ => none
  | .called call => some (process.carry call none)
  | .sock_close address => (process.objects address).map (process.sock_close address)
  | .sock_setblocking address block =>
      (process.objects address).map fun s => process.sock_setblocking address s block
  | .gc address => (process.objects address).map (process.gc address)

/-- The process before the first socket object. -/
def start : Process := ⟨fun _ => none, fun _ => none, []⟩

/-- The socket objects of a process. -/
def machine : Machine Process Event := ⟨start, step⟩

/-! ## Who has a descriptor -/

/-- A descriptor is with an object, or with a call of the class. -/
inductive Keeper
  | object (address : Nat)
  | call (call : Nat)
  deriving DecidableEq

/-- The descriptor, unless it is the invalid one. -/
def valid (fd : Int64) : Option Int64 := if fd = INVALID_SOCKET then none else some fd

@[simp] theorem valid_eq_some {fd other : Int64} :
    valid fd = some other ↔ fd ≠ INVALID_SOCKET ∧ fd = other := by
  by_cases invalid : fd = INVALID_SOCKET <;> simp [valid, invalid]

@[simp] theorem valid_eq_none {fd : Int64} : valid fd = none ↔ fd = INVALID_SOCKET := by
  by_cases invalid : fd = INVALID_SOCKET <;> simp [valid, invalid]

/-- The descriptor that a keeper has. -/
def Process.held (process : Process) : Keeper → Option Int64
  | .object address => (process.objects address).bind fun s => valid s.sock_fd
  | .call call => (process.carried call).bind valid

/-- The process only closes descriptors that are open, and each one that is open is with one
object or one call. -/
def Owned (process : Process) : Prop := Kept process.calls process.held

/-- `__init__` with arguments that raise no error is called on an object without a descriptor
unless `socket` fails, and a descriptor that it is given is carried by a call or that of the
object. -/
def CleanInit (process : Process) (s : PySocketSockObject) (answer : Int64) : Arguments → Prop
  | ⟨_, _, _, some fd⟩ => s.sock_fd = fd ∨
      s.sock_fd = INVALID_SOCKET ∧ ∃ call, process.held (.call call) = some fd
  | ⟨_, _, _, none⟩ => answer = INVALID_SOCKET ∨ s.sock_fd = INVALID_SOCKET

/-- `__init__` is clean, and a class that `accept` has called has taken the descriptor over when
it returns. -/
def Clean (process : Process) : Event → Prop
  | .init address family type proto fd answer =>
      ∀ s, process.objects address = some s →
        ∀ arguments, Arguments.read family type proto fd = some arguments →
          CleanInit process s answer arguments
  | .called call => process.held (.call call) = none
  | _ => True

section Held

variable {process : Process} {address call : Nat} {s : PySocketSockObject} {fd : Int64}

theorem held_put (process : Process) (address : Nat) (object : Option PySocketSockObject) :
    (process.put address object).held =
      Function.update process.held (.object address) (object.bind fun s => valid s.sock_fd) := by
  funext keeper
  cases keeper with
  | object other =>
      by_cases same : other = address
      · subst same
        simp [Process.held, Process.put]
      · simp [Process.held, Process.put, same]
  | call other => simp [Process.held, Process.put]

theorem held_carry (process : Process) (call : Nat) (fd : Option Int64) :
    (process.carry call fd).held =
      Function.update process.held (.call call) (fd.bind valid) := by
  funext keeper
  cases keeper with
  | object other => simp [Process.held, Process.carry]
  | call other =>
      by_cases same : other = call
      · subst same
        simp [Process.held, Process.carry]
      · simp [Process.held, Process.carry, same]

theorem held_object (here : process.objects address = some s) :
    process.held (.object address) = valid s.sock_fd := by
  simp [Process.held, here]

/-- Nobody has the invalid descriptor. -/
theorem held_valid {keeper : Keeper} (has : process.held keeper = some fd) :
    fd ≠ INVALID_SOCKET := by
  cases keeper with
  | object address =>
      obtain ⟨s, _, known⟩ := Option.bind_eq_some_iff.mp has
      obtain ⟨isValid, rfl⟩ := valid_eq_some.mp known
      exact isValid
  | call call =>
      obtain ⟨carried, _, known⟩ := Option.bind_eq_some_iff.mp has
      obtain ⟨isValid, rfl⟩ := valid_eq_some.mp known
      exact isValid

@[simp] theorem held_returned : (process.returned fd).held = process.held := rfl

@[simp] theorem held_SOCKETCLOSE : (process.SOCKETCLOSE fd).held = process.held := rfl

@[simp] theorem held_takeOver_object :
    (process.takeOver fd).held (.object address) = process.held (.object address) := rfl

/-- The calls that carry the descriptor carry it no more. -/
theorem held_takeOver_call :
    (process.takeOver fd).held (.call call) =
      if process.held (.call call) = some fd then none else process.held (.call call) := by
  unfold Process.takeOver Process.held
  by_cases carries : process.carried call = some fd
  · by_cases invalid : fd = INVALID_SOCKET
    · simp [carries, valid_eq_none.mpr invalid]
    · simp [carries, invalid]
  · have others : (process.carried call).bind valid ≠ some fd := by
      intro has
      obtain ⟨other, found, known⟩ := Option.bind_eq_some_iff.mp has
      rw [(valid_eq_some.mp known).2] at found
      exact carries found
    simp [carries, others]

/-- Nothing changes when no call carries the descriptor. -/
theorem held_takeOver_of_free (free : ∀ call, process.held (.call call) ≠ some fd) :
    (process.takeOver fd).held = process.held := by
  funext keeper
  cases keeper with
  | object address => rfl
  | call call => rw [held_takeOver_call, if_neg (free call)]

/-- The call that carries the descriptor is the only one. -/
theorem held_takeOver (owned : Owned process) (carries : process.held (.call call) = some fd) :
    (process.takeOver fd).held = Function.update process.held (.call call) none := by
  funext keeper
  cases keeper with
  | object address => simp
  | call other =>
      rw [held_takeOver_call]
      by_cases has : process.held (.call other) = some fd
      · have same := owned.unique _ _ fd has carries
        rw [if_pos has, same, Function.update_self]
      · have apart : Keeper.call other ≠ .call call := by
          intro same
          rw [same] at has
          exact has carries
        rw [if_neg has, Function.update_of_ne apart]

end Held

/-! ## One step -/

section Steps

variable {process : Process} {address call : Nat} {s : PySocketSockObject} {fd answer : Int64}
  {family type proto : Int32}

/-- An object whose descriptor stays is changed. -/
theorem owned_put (owned : Owned process) (here : process.objects address = some s)
    {changed : PySocketSockObject} (same : changed.sock_fd = s.sock_fd) :
    Owned (process.put address (some changed)) := by
  unfold Owned
  rw [held_put, Option.bind_some, same, ← held_object here, Function.update_eq_self]
  exact owned

/-- **`__new__`** makes an object without a descriptor. -/
theorem owned_new (owned : Owned process) (free : process.objects address = none)
    (memory : Sock) : Owned (process.put address (some (new memory))) := by
  have nothing : process.held (.object address) = none := by
    simp [Process.held, free]
  have fresh : valid (new memory).sock_fd = none := valid_eq_none.mpr rfl
  unfold Owned
  rw [held_put, Option.bind_some, fresh, ← nothing, Function.update_eq_self]
  exact owned

/-- **`sock_close`** closes the descriptor of the object, once. -/
theorem owned_close (owned : Owned process) (here : process.objects address = some s) :
    Owned (process.sock_close address s) := by
  unfold Process.sock_close
  by_cases invalid : s.sock_fd = -1
  · rw [if_neg (not_not_intro invalid)]
    exact owned
  · have has : process.held (.object address) = some s.sock_fd := by
      rw [held_object here]
      exact valid_eq_some.mpr ⟨invalid, rfl⟩
    have closed := Kept.release owned has
    have nothing : valid ({ s with sock_fd := -1 } : PySocketSockObject).sock_fd = none :=
      valid_eq_none.mpr rfl
    rw [if_pos invalid]
    unfold Owned
    rw [held_SOCKETCLOSE, held_put, Option.bind_some, nothing]
    exact closed

/-- **`__gc`** closes the descriptor that the object still has. -/
theorem owned_gc (owned : Owned process) (here : process.objects address = some s) :
    Owned (process.gc address s) := by
  unfold Process.gc
  by_cases invalid : s.sock_fd = -1
  · have nothing : process.held (.object address) = none := by
      rw [held_object here]
      exact valid_eq_none.mpr invalid
    rw [if_neg (not_not_intro invalid)]
    unfold Owned
    rw [held_put, Option.bind_none, ← nothing, Function.update_eq_self]
    exact owned
  · have has : process.held (.object address) = some s.sock_fd := by
      rw [held_object here]
      exact valid_eq_some.mpr ⟨invalid, rfl⟩
    have closed := Kept.release owned has
    rw [if_pos invalid]
    unfold Owned
    rw [held_put, Option.bind_none, held_SOCKETCLOSE]
    exact closed

/-- **`sock_accept`** hands the new descriptor to the class, or closes it at once. -/
theorem owned_accept (owned : Owned process) (unused : process.carried call = none)
    {callable : Bool} {next : Process}
    (accepted : process.sock_accept call answer callable = some next) : Owned next := by
  unfold Process.sock_accept at accepted
  by_cases invalid : answer = INVALID_SOCKET
  · rw [if_pos invalid] at accepted
    cases accepted
    exact owned
  · by_cases loaned : OnLoan process.calls answer
    · rw [if_neg invalid, if_pos loaned] at accepted
      cases accepted
    · rw [if_neg invalid, if_neg loaned] at accepted
      cases callable with
      | true =>
          have nothing : process.held (.call call) = none := by
            simp [Process.held, unused]
          have taken := Kept.take owned nothing loaned
          cases accepted
          unfold Owned
          rw [held_carry, held_returned, Option.bind_some, valid_eq_some.mpr ⟨invalid, rfl⟩]
          exact taken
      | false =>
          cases accepted
          exact Kept.borrow owned loaned

/-- **The class returns**: all is well exactly if it has taken the descriptor over. -/
theorem owned_called_iff (owned : Owned process) (call : Nat) :
    Owned (process.carry call none) ↔ process.held (.call call) = none := by
  cases found : process.held (.call call) with
  | none =>
      have same : (process.carry call none).held = process.held := by
        rw [held_carry, Option.bind_none, ← found, Function.update_eq_self]
      unfold Owned
      rw [same]
      exact iff_of_true owned rfl
  | some fd =>
      have loaned : OnLoan process.calls fd := (owned.onLoan_iff fd).mpr ⟨_, found⟩
      have lost : ∀ keeper, (process.carry call none).held keeper ≠ some fd := by
        intro keeper has
        rw [held_carry, Option.bind_none, PartialMap.unbind_eq_some_iff] at has
        exact has.1 (owned.unique keeper _ fd has.2 found)
      exact iff_of_false (Kept.not_of_lost loaned lost) (Option.some_ne_none fd)

/-- An object that had a descriptor and is given another one leaves the old one open. -/
theorem not_owned_of_lost (owned : Owned process) (here : process.objects address = some s)
    (had : s.sock_fd ≠ INVALID_SOCKET) {next : Process}
    (loans : OnLoan process.calls s.sock_fd → OnLoan next.calls s.sock_fd)
    (other : next.held (.object address) ≠ some s.sock_fd)
    (rest : ∀ keeper, keeper ≠ .object address → next.held keeper = some s.sock_fd →
      process.held keeper = some s.sock_fd) : ¬ Owned next := by
  have has : process.held (.object address) = some s.sock_fd := by
    rw [held_object here]
    exact valid_eq_some.mpr ⟨had, rfl⟩
  have loaned := loans ((owned.onLoan_iff _).mpr ⟨_, has⟩)
  apply Kept.not_of_lost loaned
  intro keeper kept
  by_cases same : keeper = .object address
  · rw [same] at kept
    exact other kept
  · exact same (owned.unique keeper _ _ (rest keeper same kept) has)

/-- **`__init__` with a new descriptor**: all is well exactly if the object had none. -/
theorem owned_socket_iff (owned : Owned process) (here : process.objects address = some s)
    (isValid : answer ≠ INVALID_SOCKET) (free : ¬ OnLoan process.calls answer) :
    Owned ((process.returned answer).put address
        (some (init_sockobject answer family type proto))) ↔ s.sock_fd = INVALID_SOCKET := by
  have held : ((process.returned answer).put address
      (some (init_sockobject answer family type proto))).held =
        Function.update process.held (.object address) (some answer) := by
    rw [held_put, held_returned, Option.bind_some]
    congr 1
    exact valid_eq_some.mpr ⟨isValid, rfl⟩
  by_cases had : s.sock_fd = INVALID_SOCKET
  · have nothing : process.held (.object address) = none := by
      rw [held_object here]
      exact valid_eq_none.mpr had
    have taken := Kept.take owned nothing free
    rw [← held] at taken
    exact iff_of_true taken had
  · refine iff_of_false (not_owned_of_lost owned here had ?_ ?_ ?_) had
    · intro loaned
      exact onLoan_take.mpr (Or.inr loaned)
    · intro same
      rw [held, Function.update_self, Option.some.injEq] at same
      apply free
      rw [same]
      refine (owned.onLoan_iff _).mpr ⟨.object address, ?_⟩
      rw [held_object here]
      exact valid_eq_some.mpr ⟨had, rfl⟩
    · intro keeper apart has
      rw [held, Function.update_of_ne apart] at has
      exact has

/-- **`__init__` with a descriptor that it is given**: all is well exactly if the object had it
already, or had none and a call carries it. -/
theorem owned_given_iff (owned : Owned process) (here : process.objects address = some s) :
    Owned ((process.takeOver fd).put address (some (init_sockobject fd family type proto))) ↔
      s.sock_fd = fd ∨
        s.sock_fd = INVALID_SOCKET ∧ ∃ call, process.held (.call call) = some fd := by
  have held : ((process.takeOver fd).put address
      (some (init_sockobject fd family type proto))).held =
        Function.update (process.takeOver fd).held (.object address) (valid fd) := by
    rw [held_put, Option.bind_some]
    rfl
  by_cases same : s.sock_fd = fd
  · have free : ∀ call, process.held (.call call) ≠ some fd := by
      intro call has
      have both : process.held (.object address) = some fd := by
        rw [held_object here, same]
        exact valid_eq_some.mpr ⟨held_valid has, rfl⟩
      cases owned.unique _ _ fd has both
    rw [held_takeOver_of_free free, ← same, ← held_object here, Function.update_eq_self] at held
    refine iff_of_true ?_ (Or.inl same)
    unfold Owned
    rw [← same, held]
    exact owned
  · by_cases had : s.sock_fd = INVALID_SOCKET
    · have nothing : process.held (.object address) = none := by
        rw [held_object here]
        exact valid_eq_none.mpr had
      have isValid : fd ≠ INVALID_SOCKET := fun invalid => same (had.trans invalid.symm)
      rw [valid_eq_some.mpr ⟨isValid, rfl⟩] at held
      by_cases carried : ∃ call, process.held (.call call) = some fd
      · obtain ⟨call, carries⟩ := carried
        have passed := Kept.pass owned carries nothing
        rw [← held_takeOver owned carries, ← held] at passed
        exact iff_of_true passed (Or.inr ⟨had, call, carries⟩)
      · have free : ∀ call, process.held (.call call) ≠ some fd :=
          fun call has => carried ⟨call, has⟩
        rw [held_takeOver_of_free free] at held
        refine iff_of_false ?_ ?_
        · intro after
          -- The descriptor is closed, or it is with another object.
          have mine : ((process.takeOver fd).put address
              (some (init_sockobject fd family type proto))).held (.object address) = some fd := by
            rw [held, Function.update_self]
          have loaned : OnLoan process.calls fd := (after.onLoan_iff fd).mpr ⟨_, mine⟩
          obtain ⟨keeper, has⟩ := (owned.onLoan_iff fd).mp loaned
          have apart : keeper ≠ .object address := by
            intro equal
            rw [equal, nothing] at has
            cases has
          have still : ((process.takeOver fd).put address
              (some (init_sockobject fd family type proto))).held keeper = some fd := by
            rw [held, Function.update_of_ne apart]
            exact has
          exact apart (after.unique _ _ fd still mine)
        · intro clean
          rcases clean with equal | ⟨_, call, has⟩
          · exact same equal
          · exact free call has
    · refine iff_of_false (not_owned_of_lost owned here had id ?_ ?_) ?_
      · intro has
        rw [held, Function.update_self, valid_eq_some] at has
        exact same has.2.symm
      · intro keeper apart has
        rw [held, Function.update_of_ne apart] at has
        cases keeper with
        | object other => exact has
        | call other =>
            rw [held_takeOver_call] at has
            by_cases carries : process.held (.call other) = some fd
            · rw [if_pos carries] at has
              cases has
            · rw [if_neg carries] at has
              exact has
      · intro clean
        rcases clean with equal | ⟨none_, _⟩
        · exact same equal
        · exact had none_

/-- **`__init__`** keeps all well exactly if it is clean. -/
theorem owned_init_iff (owned : Owned process) (here : process.objects address = some s)
    {arguments : Arguments} {next : Process}
    (initialized : process.init address (some arguments) answer = some next) :
    Owned next ↔ CleanInit process s answer arguments := by
  obtain ⟨family, type, proto, given⟩ := arguments
  cases given with
  | some fd =>
      cases initialized
      exact owned_given_iff owned here
  | none =>
      unfold Process.init at initialized
      unfold CleanInit
      dsimp only at initialized ⊢
      by_cases invalid : answer = INVALID_SOCKET
      · rw [if_pos invalid] at initialized
        cases initialized
        exact iff_of_true owned (Or.inl invalid)
      · by_cases loaned : OnLoan process.calls answer
        · rw [if_neg invalid, if_pos loaned] at initialized
          cases initialized
        · rw [if_neg invalid, if_neg loaned] at initialized
          cases initialized
          rw [owned_socket_iff owned here invalid loaned]
          exact (or_iff_right invalid).symm

/-- **One step** keeps all well exactly if it is clean. -/
theorem owned_step_iff (owned : Owned process) {event : Event} {next : Process}
    (stepped : machine.step process event = some next) : Owned next ↔ Clean process event := by
  change step process event = some next at stepped
  cases event with
  | new address memory =>
      cases here : process.objects address with
      | some s => simp [step, here] at stepped
      | none =>
          simp only [step, here, Option.some.injEq] at stepped
          subst stepped
          exact iff_of_true (owned_new owned here memory) trivial
  | init address family type proto fd answer =>
      simp only [step, Option.bind_eq_some_iff] at stepped
      obtain ⟨s, here, initialized⟩ := stepped
      unfold Clean
      cases read : Arguments.read family type proto fd with
      | none =>
          rw [read] at initialized
          cases initialized
          refine iff_of_true owned ?_
          intro _ _ arguments same
          cases read.symm.trans same
      | some arguments =>
          rw [read] at initialized
          rw [owned_init_iff owned here initialized]
          constructor
          · intro clean other found others same
            cases here.symm.trans found
            cases read.symm.trans same
            exact clean
          · intro clean
            exact clean s here arguments read
  | sock_accept address call answer callable =>
      cases here : process.objects address with
      | none => simp [step, here] at stepped
      | some s =>
          cases unused : process.carried call with
          | some fd => simp [step, here, unused] at stepped
          | none =>
              simp only [step, here, unused] at stepped
              exact iff_of_true (owned_accept owned unused stepped) trivial
  | called call =>
      cases stepped
      exact owned_called_iff owned call
  | sock_close address =>
      simp only [step, Option.map_eq_some_iff] at stepped
      obtain ⟨s, here, rfl⟩ := stepped
      exact iff_of_true (owned_close owned here) trivial
  | sock_setblocking address block =>
      simp only [step, Option.map_eq_some_iff] at stepped
      obtain ⟨s, here, rfl⟩ := stepped
      exact iff_of_true (owned_put owned here rfl) trivial
  | gc address =>
      simp only [step, Option.map_eq_some_iff] at stepped
      obtain ⟨s, here, rfl⟩ := stepped
      exact iff_of_true (owned_gc owned here) trivial

end Steps

theorem owned_start : Owned start := by
  apply Kept.empty
  intro keeper
  cases keeper <;> rfl

/-- When all objects have been deleted and all calls of the class have returned, no descriptor
is open. -/
theorem Owned.settled {process : Process} (owned : Owned process)
    (deleted : ∀ address, process.objects address = none)
    (done : ∀ call, process.carried call = none) (fd : Int64) : ¬ OnLoan process.calls fd := by
  apply Kept.settled owned
  intro keeper
  cases keeper with
  | object address => simp [Process.held, deleted]
  | call call => simp [Process.held, done]

/-- **Descriptors have one owner.** In a run of socket objects each open descriptor is at all
times with exactly one object or call of the class, and only open descriptors are closed, exactly
if each `__init__` is clean and each class that `accept` calls takes the descriptor over. Then no
descriptor is open once all objects have been deleted. -/
theorem descriptors_have_one_owner {events : List Event} {last : Process}
    (ran : machine.run events = some last) :
    ((∀ first process, first <+: events → machine.run first = some process → Owned process) ↔
      machine.Guarded Clean start events) ∧
    (machine.Guarded Clean start events → (∀ address, last.objects address = none) →
      (∀ call, last.carried call = none) → ∀ fd, ¬ OnLoan last.calls fd) := by
  have exactly := machine.run_throughout_iff owned_start
    (fun _ _ _ owned stepped => owned_step_iff owned stepped) ran
  refine ⟨exactly, ?_⟩
  intro clean deleted done
  have owned := exactly.mpr clean events last (List.prefix_refl events) ran
  exact owned.settled deleted done

/-- A socket accepts a connection, and both are deleted. -/
def served : List Event :=
  [.new 0 ⟨0, 0, 0, 0⟩, .init 0 .nil .nil .nil .nil 5, .sock_accept 0 0 6 true,
    .new 1 ⟨0, 0, 0, 0⟩, .init 1 .nil .nil .nil (.integer 6) 0, .called 0, .sock_close 0,
    .gc 0, .gc 1]

theorem clean_served : machine.Guarded Clean start served := by
  refine Machine.Guarded.cons trivial rfl ?_
  refine Machine.Guarded.cons ?_ rfl ?_
  · intro s here arguments read
    cases Option.some.inj here
    cases Option.some.inj read
    exact Or.inr rfl
  refine Machine.Guarded.cons trivial rfl ?_
  refine Machine.Guarded.cons trivial rfl ?_
  refine Machine.Guarded.cons ?_ rfl ?_
  · intro s here arguments read
    cases Option.some.inj here
    cases Option.some.inj read
    -- the call of `accept` carries the descriptor 6
    exact Or.inr ⟨rfl, 0, rfl⟩
  refine Machine.Guarded.cons ?_ rfl ?_
  · change Option.bind none valid = none
    rfl
  exact Machine.Guarded.cons trivial rfl (Machine.Guarded.cons trivial rfl
    (Machine.Guarded.cons trivial rfl trivial))

/-- Each descriptor has one owner at all times, and none is open in the end. -/
theorem descriptors_have_one_owner_served :
    ∃ last, machine.run served = some last ∧
      (∀ first process, first <+: served → machine.run first = some process → Owned process) ∧
      last.calls = [.release 6, .release 5, .take 6 (), .take 5 ()] ∧
      ∀ fd, ¬ OnLoan last.calls fd := by
  have deleted : ∃ last, machine.run served = some last ∧
      last.calls = [.release 6, .release 5, .take 6 (), .take 5 ()] ∧
      (∀ address, last.objects address = none) ∧ ∀ call, last.carried call = none := by
    refine ⟨_, rfl, rfl, fun address => ?_, fun call => ?_⟩
    · match address with
      | 0 => rfl
      | 1 => rfl
      | address + 2 => rfl
    · match call with
      | 0 => rfl
      | call + 1 => rfl
  obtain ⟨last, ran, calls, objects, carried⟩ := deleted
  obtain ⟨exactly, settled⟩ := descriptors_have_one_owner ran
  exact ⟨last, ran, exactly.mpr clean_served, calls, settled clean_served objects carried⟩

/-! ## The loop around a call

`accept`, `recv` and `send` stand in a loop that waits in `select` while an object has a positive
timeout. -/

/-- What one pass of the loop meets: the answers of `select` and of the call, whether the error
is `EWOULDBLOCK` or `EAGAIN`, and the time after it. -/
structure Pass where
  selected : Int
  answer : Int64
  wouldBlock : Bool
  time : Int

/-- `internal_select_ex`. Its guard against a closed socket is never true of a `SOCKET`, which has
no sign. -/
def internal_select_ex (s : PySocketSockObject) (interval selected : Int) : Int :=
  if s.sock_timeout ≤ 0 then 0
  else if interval < 0 then 1
  else if selected < 0 then -1
  else if selected = 0 then 1
  else 0

/-- How the loop ends, if it does: with the error for a timeout, or after some calls with the
answer of the last one. -/
inductive Looped
  | timedOut
  | broke (answer : Int64) (calls : Nat)
  | running

/-- `BEGIN_SELECT_LOOP` to `END_SELECT_LOOP`. -/
def selectLoop (s : PySocketSockObject) (deadline : Int) :
    List Pass → (interval : Int) → (answer : Int64) → (calls : Nat) → Looped
  | [], _, _, _ => .running
  | pass :: passes, interval, answer, calls =>
      let timeout := internal_select_ex s interval pass.selected
      let answer := if timeout = 0 then pass.answer else answer
      let calls := if timeout = 0 then calls + 1 else calls
      if timeout = 1 then .timedOut
      else if ¬ 0 < s.sock_timeout ∨ ¬ pass.wouldBlock then .broke answer calls
      else selectLoop s deadline passes (deadline - pass.time) answer calls

/-- No object has a positive timeout. -/
def Untimed (process : Process) : Prop :=
  ∀ address s, process.objects address = some s → s.sock_timeout ≤ 0

theorem untimed_put {process : Process} (untimed : Untimed process) (address : Nat)
    {object : Option PySocketSockObject} (new : ∀ s, object = some s → s.sock_timeout ≤ 0) :
    Untimed (process.put address object) := by
  intro asked s found
  by_cases same : asked = address
  · apply new s
    simpa [Process.put, same] using found
  · apply untimed asked s
    simpa [Process.put, same] using found

/-- No method sets a positive timeout. -/
theorem untimed_step {process next : Process} {event : Event} (untimed : Untimed process)
    (stepped : machine.step process event = some next) : Untimed next := by
  change step process event = some next at stepped
  cases event with
  | new address memory =>
      cases here : process.objects address with
      | some s => simp [step, here] at stepped
      | none =>
          simp only [step, here, Option.some.injEq] at stepped
          subst stepped
          apply untimed_put untimed
          simp [new]
  | init address family type proto fd answer =>
      simp only [step, Option.bind_eq_some_iff] at stepped
      obtain ⟨s, _, initialized⟩ := stepped
      unfold Process.init at initialized
      split at initialized
      · cases initialized
        exact untimed
      next family type proto fd _ =>
        have carried : Untimed (process.takeOver fd) := untimed
        cases initialized
        apply untimed_put carried
        simp [init_sockobject, defaulttimeout]
      · split at initialized
        · cases initialized
          exact untimed
        · split at initialized
          · cases initialized
          · have opened : Untimed (process.returned answer) := untimed
            cases initialized
            apply untimed_put opened
            simp [init_sockobject, defaulttimeout]
  | sock_accept address call answer callable =>
      cases here : process.objects address with
      | none => simp [step, here] at stepped
      | some s =>
          cases unused : process.carried call with
          | some fd => simp [step, here, unused] at stepped
          | none =>
              simp only [step, here, unused, Process.sock_accept] at stepped
              split at stepped
              · cases stepped
                exact untimed
              · split at stepped
                · cases stepped
                · split at stepped <;> cases stepped <;> exact untimed
  | called call =>
      cases stepped
      exact untimed
  | sock_close address =>
      simp only [step, Option.map_eq_some_iff, Process.sock_close] at stepped
      obtain ⟨s, here, rfl⟩ := stepped
      split
      · have kept : Untimed (process.put address (some { s with sock_fd := -1 })) := by
          apply untimed_put untimed
          simpa using untimed address s here
        exact kept
      · exact untimed
  | sock_setblocking address block =>
      simp only [step, Option.map_eq_some_iff] at stepped
      obtain ⟨s, here, rfl⟩ := stepped
      apply untimed_put untimed
      by_cases blocks : block ≠ 0 <;> simp [blocks]
  | gc address =>
      simp only [step, Option.map_eq_some_iff, Process.gc] at stepped
      obtain ⟨s, here, rfl⟩ := stepped
      split <;> exact untimed_put untimed address (by simp)

/-- **No method of a socket object times out.** The loop of each object makes one call and does
not wait in `select`. -/
theorem selectLoop_of_run {events : List Event} {last : Process}
    (ran : machine.run events = some last) {address : Nat} {s : PySocketSockObject}
    (here : last.objects address = some s) (deadline : Int) (pass : Pass) (passes : List Pass)
    (answer : Int64) :
    selectLoop s deadline (pass :: passes) s.sock_timeout answer 0 = .broke pass.answer 1 := by
  have untimed : Untimed last := by
    refine machine.run_invariant Untimed ?_ (fun _ _ _ => untimed_step) events last ran
    intro address s found
    cases found
  have timeout := untimed address s here
  simp [selectLoop, internal_select_ex, timeout]

end Descriptors

end Socket

end EasyLua
