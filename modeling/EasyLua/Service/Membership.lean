import EasyLua.Foundation.Machine
import EasyLua.Registry.Register
import EasyLua.Service.Context
import Mathlib.Logic.Function.Basic

/-!
# VMs that join and leave a service

One service and the VMs created for it, with every operation taken as a whole.
`cThisVM.__new__` constructs a context, which starts out idle, and checks it in; the
destructor callback that `checkIn` has added erases the entry when the VM is
destroyed. `checkIn` ignores a VM whose key is taken.
-/

namespace EasyLua

namespace Membership

/-- A living VM of the service: its handle, whether `checkIn` gave it a destructor
callback, and its context. -/
structure Vm where
  handle_ : UInt32
  callback : Bool
  context : VmContext

/-- The service, its VMs numbered in the order of their creation, and the handle that
the last context of any service got. -/
structure World where
  map_ : Register Int32 Nat
  msgQueue : BlockQueue Mail
  vm : Nat → Option Vm
  created : Nat
  lastHandle_ : UInt32

/-- One operation. -/
inductive Event
  /-- `cServiceInfo::pushMsg2FreeVm`. -/
  | pushMsg2FreeVm (mail : Mail)
  /-- `cVmContext::pushMsg` of a message that addresses the VM. -/
  | pushMsg (number : Nat) (mail : Mail)
  /-- `cVmContext::popMsg`. -/
  | popMsg (number : Nat)
  /-- `cVmContext::cVmContext` and `serviceInfo->checkIn` in `__new__`. -/
  | create
  /-- `cVmContext::cVmContext` for another service. -/
  | createElsewhere
  /-- The last reference to the context is dropped. -/
  | destroy (number : Nat)

/-- The key of a handle in `Register<int, cVmContext>`. -/
def key (handle_ : UInt32) : Int32 := handle_.toInt32

/-- The loop of `pushMsg2FreeVm` over the entries: the first idle VM, if there is one.
There is no result when the assertion on a locked entry fails. -/
def findIdle (vm : Nat → Option Vm) : List (Int32 × Nat) → Option (Option Nat)
  | [] => some none
  | (_, number) :: rest =>
      match vm number with
      | none => none
      | some found => if found.context.isIdle then some (some number) else findIdle vm rest

/-- A member function is called on the context of a VM. -/
def World.call (world : World) (number : Nat) (function : VmContext → VmContext) :
    Option World :=
  match world.vm number with
  | none => none
  | some vm =>
      some { world with
        vm := Function.update world.vm number
          (some { vm with context := function vm.context }) }

/-- `serviceInfo->checkIn` of the next VM to be constructed. -/
def World.checkInNext (world : World) : Register Int32 Nat × Bool :=
  world.map_.checkIn (fun _ => key (world.lastHandle_ + 1)) world.created

/-- One operation; no result when its VM does not live. -/
def step (world : World) : Event → Option World
  | .pushMsg2FreeVm mail =>
      match findIdle world.vm world.map_.map_.toList with
      | some (some pIdle) => world.call pIdle fun context => context.pushMsg mail
      | some none => some { world with msgQueue := world.msgQueue.put mail }
      | none => none
  | .pushMsg number mail => world.call number fun context => context.pushMsg mail
  | .popMsg number =>
      match world.vm number with
      | none => none
      | some vm =>
          match vm.context.popMsg world.msgQueue with
          | some (_, context, queue) =>
              some { world with
                msgQueue := queue
                vm := Function.update world.vm number (some { vm with context }) }
          | none => none
  | .create =>
      let (map_, callback) := world.checkInNext
      some { world with
        map_
        vm := Function.update world.vm world.created
          (some { handle_ := world.lastHandle_ + 1, callback, context := {} })
        created := world.created + 1
        lastHandle_ := world.lastHandle_ + 1 }
  | .createElsewhere => some { world with lastHandle_ := world.lastHandle_ + 1 }
  | .destroy number =>
      match world.vm number with
      | none => none
      | some vm =>
          some { world with
            map_ := if vm.callback then world.map_.removeItemCallback (key vm.handle_)
              else world.map_
            vm := Function.update world.vm number none }

/-- The operations on one service. -/
def machine : Machine World Event where
  init := { map_ := {}, msgQueue := {}, vm := fun _ => none, created := 0, lastHandle_ := 0 }
  step := step

/-- The registry of the service has an entry of the VM. -/
def World.Registered (world : World) (number : Nat) : Prop :=
  ∃ key : Int32, world.map_.map_[key]? = some number

/-- No registered VM is idle while the shared queue holds a message. -/
def WorkConserving (world : World) : Prop :=
  world.msgQueue.queue_ ≠ [] → ∀ number vm, world.Registered number →
    world.vm number = some vm → vm.context.bIdle = false

/-- A VM that gets registered joins while the shared queue is empty, and a message
without payload is only popped from the shared queue when it is the last one there. -/
def JoinsIdle (world : World) : Event → Prop
  | .create => world.checkInNext.2 = true → world.msgQueue.queue_ = []
  | .popMsg number => ∀ vm mail rest, world.Registered number → world.vm number = some vm →
      vm.context.msgQueue_.queue_ = [] → world.msgQueue.queue_ = mail :: rest →
      mail.msg.data = none → rest = []
  | _ => True

variable {world next : World}

theorem call_eq_some {number : Nat} {function : VmContext → VmContext}
    (called : world.call number function = some next) :
    ∃ vm, world.vm number = some vm ∧ next = { world with
      vm := Function.update world.vm number (some { vm with context := function vm.context }) } := by
  unfold World.call at called
  split at called
  · cases called
  · exact ⟨_, ‹_›, (Option.some.inj called).symm⟩

/-- `pushMsg2FreeVm` pushes to the idle VM it has found, or into the shared queue. -/
theorem step_pushMsg2FreeVm {mail : Mail}
    (stepped : step world (.pushMsg2FreeVm mail) = some next) :
    (∃ pIdle vm, world.vm pIdle = some vm ∧ next = { world with
      vm := Function.update world.vm pIdle
        (some { vm with context := vm.context.pushMsg mail }) }) ∨
    (findIdle world.vm world.map_.map_.toList = some none ∧
      next = { world with msgQueue := world.msgQueue.put mail }) := by
  simp only [step] at stepped
  split at stepped
  · rename_i pIdle _
    exact Or.inl ⟨pIdle, call_eq_some stepped⟩
  · exact Or.inr ⟨‹_›, (Option.some.inj stepped).symm⟩
  · cases stepped

theorem step_pushMsg {number : Nat} {mail : Mail}
    (stepped : step world (.pushMsg number mail) = some next) :
    ∃ vm, world.vm number = some vm ∧ next = { world with
      vm := Function.update world.vm number
        (some { vm with context := vm.context.pushMsg mail }) } := by
  simp only [step] at stepped
  exact call_eq_some stepped

theorem step_popMsg {number : Nat} (stepped : step world (.popMsg number) = some next) :
    ∃ vm mail context queue, world.vm number = some vm ∧
      vm.context.popMsg world.msgQueue = some (mail, context, queue) ∧
      next = { world with
        msgQueue := queue
        vm := Function.update world.vm number (some { vm with context }) } := by
  simp only [step] at stepped
  split at stepped
  · cases stepped
  · rename_i vm living
    split at stepped
    · rename_i mail context queue popped
      exact ⟨vm, mail, context, queue, living, popped, (Option.some.inj stepped).symm⟩
    · cases stepped

/-- The new VM is idle. `checkIn` adds its entry, or changes nothing. -/
theorem step_create (stepped : step world .create = some next) :
    next.msgQueue = world.msgQueue ∧ next.created = world.created + 1 ∧
    (∃ callback, next.vm = Function.update world.vm world.created
      (some { handle_ := world.lastHandle_ + 1, callback, context := {} })) ∧
    ((world.checkInNext.2 = true ∧
        ∃ key : Int32, next.map_ = { map_ := world.map_.map_.insert key world.created }) ∨
      (world.checkInNext.2 = false ∧ next.map_ = world.map_)) := by
  cases stepped
  refine ⟨rfl, rfl, ⟨_, rfl⟩, ?_⟩
  unfold World.checkInNext Register.checkIn
  split
  · exact Or.inr ⟨rfl, rfl⟩
  · exact Or.inl ⟨rfl, _, rfl⟩

/-- A destroyed VM leaves, and no entry is added. -/
theorem step_destroy {number : Nat} (stepped : step world (.destroy number) = some next) :
    next.msgQueue = world.msgQueue ∧ next.created = world.created ∧
    next.vm = Function.update world.vm number none ∧
    ∀ key : Int32, next.map_.map_[key]? = world.map_.map_[key]? ∨
      next.map_.map_[key]? = none := by
  simp only [step] at stepped
  split at stepped
  · cases stepped
  · cases stepped
    refine ⟨rfl, rfl, rfl, fun key => ?_⟩
    simp only
    split
    · simp only [Register.removeItemCallback, Std.TreeMap.getElem?_erase]
      split
      · exact Or.inr rfl
      · exact Or.inl rfl
    · exact Or.inl rfl

/-- When the loop ends without an idle VM, no entry is one of an idle VM. -/
theorem findIdle_none {vms : Nat → Option Vm} {entries : List (Int32 × Nat)}
    (found : findIdle vms entries = some none) :
    ∀ entry ∈ entries, ∀ vm, vms entry.2 = some vm → vm.context.bIdle = false := by
  induction entries with
  | nil => exact fun _ member => absurd member List.not_mem_nil
  | cons head rest ih =>
      intro entry member vm living
      simp only [findIdle] at found
      split at found
      · cases found
      · rename_i first firstLiving
        split at found
        · cases found
        · rename_i busy
          rcases List.mem_cons.mp member with rfl | later
          · rw [living] at firstLiving
            cases firstLiving
            exact Bool.eq_false_iff.mpr busy
          · exact ih found entry later vm living

/-- Every entry is one of a VM that has been created. -/
def Known (world : World) : Prop :=
  ∀ (key : Int32) (number : Nat), world.map_.map_[key]? = some number → number < world.created

theorem Known.step (known : Known world) {event : Event}
    (stepped : step world event = some next) : Known next := by
  cases event with
  | pushMsg2FreeVm mail =>
      rcases step_pushMsg2FreeVm stepped with ⟨_, _, _, rfl⟩ | ⟨_, rfl⟩
      · exact known
      · exact known
  | pushMsg number mail =>
      obtain ⟨_, _, rfl⟩ := step_pushMsg stepped
      exact known
  | popMsg number =>
      obtain ⟨_, _, _, _, _, _, rfl⟩ := step_popMsg stepped
      exact known
  | create =>
      obtain ⟨_, created, _, ⟨_, key, added⟩ | ⟨_, ignored⟩⟩ := step_create stepped
      · intro other number entry
        rw [added] at entry
        rw [created]
        by_cases same : other = key
        · rw [same, Std.TreeMap.getElem?_insert_self] at entry
          cases entry
          exact Nat.lt_succ_self _
        · rw [Register.getElem?_insert_of_ne _ _ same] at entry
          exact Nat.lt_succ_of_lt (known other number entry)
      · intro other number entry
        rw [ignored] at entry
        rw [created]
        exact Nat.lt_succ_of_lt (known other number entry)
  | createElsewhere =>
      cases stepped
      exact known
  | destroy number =>
      obtain ⟨_, created, _, entries⟩ := step_destroy stepped
      intro other found entry
      rw [created]
      rcases entries other with kept | erased
      · exact known other found (kept ▸ entry)
      · rw [erased] at entry
        cases entry

/-- A VM that is left busy, or as it was, keeps the service work conserving. -/
theorem WorkConserving.update (conserving : WorkConserving world) {number : Nat} {vm after : Vm}
    (living : world.vm number = some vm)
    (busy : vm.context.bIdle = false → after.context.bIdle = false)
    (queue : BlockQueue Mail) (fewer : queue.queue_ ≠ [] → world.msgQueue.queue_ ≠ []) :
    WorkConserving { world with
      msgQueue := queue
      vm := Function.update world.vm number (some after) } := by
  intro waiting other found registered foundLiving
  have before := conserving (fewer waiting) other
  simp only at foundLiving
  by_cases same : other = number
  · subst other
    rw [Function.update_self] at foundLiving
    cases foundLiving
    exact busy (before vm registered living)
  · rw [Function.update_of_ne same] at foundLiving
    exact before found registered foundLiving

/-- The states of `popMsg` on a registered VM that leave it idle: both queues are empty, or
a message without payload was taken for an empty queue. -/
theorem WorkConserving.popMsg (conserving : WorkConserving world) {number : Nat}
    (joins : JoinsIdle world (.popMsg number))
    (stepped : step world (.popMsg number) = some next) : WorkConserving next := by
  obtain ⟨vm, result, context, queue, living, popped, rfl⟩ := step_popMsg stepped
  cases own : vm.context.msgQueue_.queue_ with
  | cons mail rest =>
      rw [vm.context.popMsg_own _ mail rest own] at popped
      cases popped
      exact conserving.update living (fun _ => rfl) _ id
  | nil =>
      cases shared : world.msgQueue.queue_ with
      | nil =>
          rw [vm.context.popMsg_empty _ own shared] at popped
          cases popped
          exact fun waiting => absurd shared waiting
      | cons mail rest =>
          cases payload : mail.msg.data with
          | some data =>
              have valid : mail.msg.data ≠ none := by simp [payload]
              rw [vm.context.popMsg_service _ mail rest own shared valid] at popped
              cases popped
              exact conserving.update living (fun _ => rfl) _ (fun _ => by simp [shared])
          | none =>
              rw [vm.context.popMsg_null _ mail rest own shared payload] at popped
              cases popped
              intro waiting other found registered foundLiving
              by_cases same : other = number
              · subst other
                exact absurd (joins vm mail rest registered living own shared payload) waiting
              · simp only [Function.update_of_ne same] at foundLiving
                exact conserving (by simp [shared]) other found registered foundLiving

/-- A VM joins a service whose shared queue is empty, or is not registered. -/
theorem WorkConserving.create (conserving : WorkConserving world) (known : Known world)
    (joins : JoinsIdle world .create) (stepped : step world .create = some next) :
    WorkConserving next := by
  obtain ⟨queue, _, ⟨callback, vms⟩, ⟨added, _⟩ | ⟨_, ignored⟩⟩ := step_create stepped
  · intro waiting
    rw [queue] at waiting
    exact absurd (joins added) waiting
  · intro waiting number vm registered living
    rw [queue] at waiting
    rw [World.Registered, ignored] at registered
    obtain ⟨key, entry⟩ := registered
    have older : number ≠ world.created := Nat.ne_of_lt (known key number entry)
    rw [vms, Function.update_of_ne older] at living
    exact conserving waiting number vm ⟨key, entry⟩ living

/-- Each operation keeps the service work conserving when VMs join it in time. -/
theorem WorkConserving.step (conserving : WorkConserving world) (known : Known world)
    {event : Event} (joins : JoinsIdle world event) (stepped : step world event = some next) :
    WorkConserving next := by
  cases event with
  | pushMsg2FreeVm mail =>
      rcases step_pushMsg2FreeVm stepped with ⟨pIdle, vm, living, rfl⟩ | ⟨found, rfl⟩
      · exact conserving.update living (fun _ => rfl) _ id
      · intro _ number vm registered living
        obtain ⟨key, entry⟩ := registered
        have member := Std.TreeMap.mem_toList_iff_getElem?_eq_some.mpr entry
        exact findIdle_none found (key, number) member vm living
  | pushMsg number mail =>
      obtain ⟨vm, living, rfl⟩ := step_pushMsg stepped
      exact conserving.update living (fun _ => rfl) _ id
  | popMsg number => exact conserving.popMsg joins stepped
  | create => exact conserving.create known joins stepped
  | createElsewhere =>
      cases stepped
      exact conserving
  | destroy number =>
      obtain ⟨queue, _, vms, entries⟩ := step_destroy stepped
      intro waiting other vm registered living
      rw [queue] at waiting
      obtain ⟨key, entry⟩ := registered
      rcases entries key with kept | erased
      · have different : other ≠ number := by
          rintro rfl
          rw [vms, Function.update_self] at living
          cases living
        rw [vms, Function.update_of_ne different] at living
        exact conserving waiting other vm ⟨key, kept ▸ entry⟩ living
      · rw [erased] at entry
        cases entry

/-- A step that does not meet the condition leaves a registered VM idle beside a waiting
message. -/
theorem not_workConserving_of_not_joinsIdle {event : Event} (late : ¬ JoinsIdle world event)
    (stepped : step world event = some next) : ¬ WorkConserving next := by
  cases event with
  | create =>
      obtain ⟨added, waiting⟩ := Classical.not_imp.mp late
      obtain ⟨queue, _, ⟨callback, vms⟩, ⟨_, key, entries⟩ | ⟨ignored, _⟩⟩ := step_create stepped
      · intro conserving
        have registered : next.Registered world.created := by
          refine ⟨key, ?_⟩
          rw [entries]
          exact Std.TreeMap.getElem?_insert_self ..
        have idle := conserving (queue ▸ waiting) world.created _ registered
          (by rw [vms, Function.update_self])
        cases idle
      · rw [added] at ignored
        cases ignored
  | popMsg number =>
      simp only [JoinsIdle, not_forall] at late
      obtain ⟨vm, mail, rest, registered, living, own, shared, payload, waiting⟩ := late
      obtain ⟨found, result, context, queue, foundLiving, popped, rfl⟩ := step_popMsg stepped
      rw [living] at foundLiving
      cases foundLiving
      rw [vm.context.popMsg_null _ mail rest own shared payload] at popped
      cases popped
      intro conserving
      have idle := conserving waiting number _ registered (Function.update_self ..)
      cases idle
  | pushMsg2FreeVm mail => exact absurd trivial late
  | pushMsg number mail => exact absurd trivial late
  | createElsewhere => exact absurd trivial late
  | destroy number => exact absurd trivial late

/-- **Work conservation, exactly.** No registered VM is ever idle while the shared queue
holds a message if and only if every VM joins the service while its shared queue is
empty (and no message without payload is popped before others). -/
theorem workConserving_iff_joinsIdle {events : List Event} {last : World}
    (ran : machine.run events = some last) :
    (∀ first world, first <+: events → machine.run first = some world → WorkConserving world) ↔
      machine.Guarded JoinsIdle machine.init events := by
  constructor
  · intro conserving
    rw [Machine.guarded_iff]
    intro first event second split world reached
    subst split
    by_contra late
    have before : first ++ [event] <+: first ++ event :: second := ⟨second, by simp⟩
    obtain ⟨after, reachedAfter⟩ := machine.run_of_initial before ran
    have stepped := reachedAfter
    rw [Machine.run_concat, show machine.run first = some world from reached] at stepped
    exact not_workConserving_of_not_joinsIdle late stepped
      (conserving _ after before reachedAfter)
  · intro guarded first world before reached
    have both := machine.run_invariant_of_guarded JoinsIdle
      (fun world => Known world ∧ WorkConserving world)
      ⟨fun _ _ entry => by simp [machine] at entry, fun waiting => absurd rfl waiting⟩
      (fun _ _ _ kept joins stepped =>
        ⟨kept.1.step stepped, kept.2.step kept.1 joins stepped⟩)
      first world (guarded.initial _ before) reached
    exact both.2

/-- A VM joins while the message of a busy one waits. -/
def lateJoin : List Event :=
  [.create, .pushMsg2FreeVm { msg := { data := some [1] } },
    .pushMsg2FreeVm { msg := { data := some [2] } }, .create]

/-- After `lateJoin` the second VM is registered and idle beside a waiting message. -/
theorem lateJoin_idle :
    ∃ world, machine.run lateJoin = some world ∧
      world.msgQueue.queue_ = [{ msg := { data := some [2] } }] ∧ world.Registered 1 ∧
      (∃ vm, world.vm 1 = some vm ∧ vm.context.bIdle = true) ∧ ¬ WorkConserving world := by
  obtain ⟨world, ran, waiting, registered, living⟩ : ∃ world, machine.run lateJoin = some world ∧
      world.msgQueue.queue_ = [{ msg := { data := some [2] } }] ∧
      world.map_.map_[(2 : Int32)]? = some 1 ∧
      world.vm 1 = some { handle_ := 2, callback := true, context := {} } :=
    ⟨_, rfl, rfl, rfl, rfl⟩
  refine ⟨world, ran, waiting, ⟨2, registered⟩, ⟨_, living, rfl⟩, fun conserving => ?_⟩
  have idle := conserving (by rw [waiting]; exact List.cons_ne_nil _ _) 1 _ ⟨2, registered⟩ living
  cases idle

/-- A VM that joins after the waiting message has been popped. -/
def joinAfter : List Event :=
  [.create, .pushMsg2FreeVm { msg := { data := some [1] } },
    .pushMsg2FreeVm { msg := { data := some [2] } }, .popMsg 0, .popMsg 0, .create]

/-- The second VM finds the shared queue empty, so no VM is ever idle beside a message. -/
theorem workConserving_iff_joinsIdle_joinAfter :
    (∃ last, machine.run joinAfter = some last ∧ last.Registered 1) ∧
    machine.Guarded JoinsIdle machine.init joinAfter ∧
    ∀ first world, first <+: joinAfter → machine.run first = some world →
      WorkConserving world := by
  have guarded : machine.Guarded JoinsIdle machine.init joinAfter := by
    refine .cons (fun _ => rfl) rfl <| .cons trivial rfl <| .cons trivial rfl <|
      .cons ?_ rfl <| .cons ?_ rfl <| .cons (fun _ => rfl) rfl trivial
    · -- the VM has a message of its own
      intro vm mail rest _ living own _ _
      cases living
      cases own
    · -- the message is the only one in the shared queue
      intro vm mail rest _ _ _ shared _
      exact (List.cons.inj shared).2.symm
  have registered : ∃ last, machine.run joinAfter = some last ∧
      last.map_.map_[(2 : Int32)]? = some 1 := ⟨_, rfl, rfl⟩
  obtain ⟨last, ran, entry⟩ := registered
  exact ⟨⟨last, ran, 2, entry⟩, guarded, (workConserving_iff_joinsIdle ran).mpr guarded⟩

end Membership

end EasyLua
