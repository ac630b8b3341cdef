import EasyLua.Foundation.Rotation
import EasyLua.Service.Address

/-!
# Session numbers

`cVmContext::newSession` numbers the messages that a VM sends. The constructor leaves the counter
as it is, and the counter overflows; the sessions still are positive numbers, one after the other
and round again, because the first number that is not positive starts them anew from 1.
-/

namespace EasyLua

namespace Session

/-- `cVmContext::newSession`: what it returns, and `sessionId` after it. -/
def newSession (sessionId : Int32) : Int32 × Int32 :=
  let session := sessionId + 1
  if session ≤ 0 then (1, 1) else (session, session)

/-- The sessions that so many calls return, one after the other. -/
def sessions : Int32 → Nat → List Int32
  | _, 0 => []
  | sessionId, calls + 1 =>
      match newSession sessionId with
      | (session, sessionId) => session :: sessions sessionId calls

/-- How many different sessions there are. -/
def period : Nat := 2 ^ 31 - 1

/-- A session as a number of the rotation. -/
def rank (session : Int32) : Nat := session.toInt.toNat

theorem newSession_eq (sessionId : Int32) :
    newSession sessionId = (Address.newSession sessionId, Address.newSession sessionId) := by
  unfold newSession Address.newSession
  dsimp only
  split <;> rfl

theorem sessions_eq_iterate (calls : Nat) : ∀ sessionId,
    sessions sessionId calls =
      List.iterate Address.newSession (Address.newSession sessionId) calls := by
  induction calls with
  | zero => exact fun _ => rfl
  | succ calls ih =>
      intro sessionId
      unfold sessions
      rw [newSession_eq, List.iterate, ← ih]

/-- The increment overflows at the last session, and what is not positive then becomes 1. -/
theorem toInt_newSession (sessionId : Int32) :
    (Address.newSession sessionId).toInt =
      if 0 ≤ sessionId.toInt ∧ sessionId.toInt < 2 ^ 31 - 1 then sessionId.toInt + 1 else 1 := by
  have low := sessionId.le_toInt
  have high := sessionId.toInt_lt
  have sum : (sessionId + 1).toInt =
      if sessionId.toInt < 2 ^ 31 - 1 then sessionId.toInt + 1 else -2 ^ 31 := by
    have wrapped : (sessionId + 1).toInt = (sessionId.toInt + 1).bmod (2 ^ 32) :=
      Int32.toInt_add ..
    rw [wrapped]
    split
    · exact Int.bmod_eq_of_le (by omega) (by omega)
    · have last : sessionId.toInt = 2 ^ 31 - 1 := by omega
      rw [last]
      rfl
  unfold Address.newSession
  dsimp only
  by_cases restart : sessionId + 1 ≤ 0
  · have nonpositive : (sessionId + 1).toInt ≤ 0 := Int32.le_iff_toInt_le.mp restart
    rw [sum] at nonpositive
    rw [if_pos restart, if_neg (by split at nonpositive <;> omega)]
    rfl
  · have positive : ¬ (sessionId + 1).toInt ≤ 0 := fun le => restart (Int32.le_iff_toInt_le.mpr le)
    rw [sum] at positive
    rw [if_neg restart, sum]
    split at positive
    · rw [if_pos ‹_›, if_pos (by omega)]
    · omega

theorem rank_newSession (sessionId : Int32) :
    1 ≤ rank (Address.newSession sessionId) ∧ rank (Address.newSession sessionId) ≤ period := by
  unfold rank period
  rw [toInt_newSession]
  split <;> omega

theorem turns : Rotation.Turns Address.newSession rank period := by
  intro session positive bounded
  unfold rank period at *
  unfold Rotation.next
  rw [toInt_newSession]
  split
  · rw [Nat.mod_eq_of_lt (by omega)]
    omega
  · have last : session.toInt.toNat = 2 ^ 31 - 1 := by omega
    rw [last]
    rfl

/-- **Sessions are positive and do not repeat** within as many calls as there are sessions,
whatever `sessionId` was. -/
theorem sessions_distinct (sessionId : Int32) (calls : Nat) :
    (∀ session ∈ sessions sessionId calls, 1 ≤ session.toInt ∧ session.toInt ≤ 2 ^ 31 - 1) ∧
      ∀ first, (((sessions sessionId calls).drop first).take (2 ^ 31 - 1)).Nodup := by
  rw [sessions_eq_iterate]
  obtain ⟨positive, bounded⟩ := rank_newSession sessionId
  refine ⟨fun session member => ?_, turns.nodup_window positive bounded calls⟩
  obtain ⟨k, _, rfl⟩ := List.mem_iterate.mp member
  have bounds := turns.rank_iterate_bounds positive bounded k
  unfold rank period at bounds
  omega

/-! ## The sessions of messages -/

section Messages

open Address (Vm World Event step machine sendByVmId_cases modify_vm luaMessage)

variable {Service : Type} {serviceName : Service → String} {world next : World Service}

/-- What a constructor leaves in `sessionId`. -/
def initial : Event Service → Option Int32
  | .construct _ _ sessionId => some sessionId
  | _ => none

/-- The initial counters, in the order of construction. -/
def initials (events : List (Event Service)) : List Int32 := events.filterMap initial

/-- The VM with this number sends a message. -/
def isSend (number : Nat) : Event Service → Bool
  | .sendByVmId sender _ _ _ => sender = number
  | _ => false

/-- How many messages the VM with this number has sent. -/
def sends (number : Nat) (events : List (Event Service)) : Nat := events.countP (isSend number)

theorem initials_append (events : List (Event Service)) (event : Event Service) :
    initials (events ++ [event]) = initials events ++ (initial event).toList := by
  unfold initials
  rw [List.filterMap_append]
  cases event <;> rfl

theorem sends_append (number : Nat) (events : List (Event Service)) (event : Event Service) :
    sends number (events ++ [event]) = sends number events + (isSend number event).toNat := by
  unfold sends
  rw [List.countP_append, List.countP_singleton]
  cases isSend number event <;> rfl

/-- Other changes of a context do not touch its counter. -/
theorem sessionId_modify {number other : Nat} {function : Vm Service → Vm Service}
    (same : ∀ vm, (function vm).sessionId = vm.sessionId) :
    ((world.modify number function).vm other).map Vm.sessionId =
      (world.vm other).map Vm.sessionId := by
  rw [modify_vm]
  split
  · rw [Option.map_map]
    congr 1
    funext vm
    exact same vm
  · rfl

/-- A call of `sendByVmId` moves the counter of the sender on, and no other. -/
theorem sessionId_sendByVmId {sender : Nat} {targetVmId : Int64} {charMsg : Option (List UInt8)}
    {size : Int64} {result : Bool}
    (sent : Address.sendByVmId serviceName world sender targetVmId charMsg size =
      some (result, next)) :
    next.created = world.created ∧ (∃ self, world.vm sender = some self) ∧
      ∀ number, (next.vm number).map Vm.sessionId =
        if number = sender then (world.vm number).map fun vm => Address.newSession vm.sessionId
        else (world.vm number).map Vm.sessionId := by
  obtain ⟨self, found, living⟩ : ∃ self, world.vm sender = some self ∧ self.alive = true := by
    unfold Address.sendByVmId at sent
    split at sent
    · cases sent
    · rename_i self found
      split at sent
      · exact ⟨self, found, ‹_›⟩
      · cases sent
  have started (number : Nat) : ((world.startSession sender).vm number).map Vm.sessionId =
      if number = sender then (world.vm number).map fun vm => Address.newSession vm.sessionId
      else (world.vm number).map Vm.sessionId := by
    unfold World.startSession
    rw [modify_vm]
    split
    · exact Option.map_map ..
    · rfl
  rcases sendByVmId_cases serviceName found living targetVmId charMsg size with
    ⟨target, _, ran⟩ | ⟨_, ran⟩
  · cases ran.symm.trans sent
    refine ⟨rfl, ⟨self, found⟩, fun number => ?_⟩
    refine (sessionId_modify ?_).trans (started number)
    exact fun _ => rfl
  · cases ran.symm.trans sent
    exact ⟨rfl, ⟨self, found⟩, started⟩

/-- The counter of each context has been moved on once for each message that it has sent. -/
structure Counted (events : List (Event Service)) (world : World Service) : Prop where
  created : (initials events).length = world.created
  unsent : ∀ number, world.created ≤ number → sends number events = 0
  sessionId : ∀ number, (world.vm number).map Vm.sessionId =
    (initials events)[number]?.map Address.newSession^[sends number events]

theorem Counted.lt_created {events : List (Event Service)} (counted : Counted events world)
    {number : Nat} {vm : Vm Service} (found : world.vm number = some vm) :
    number < world.created := by
  by_contra late
  have absent := counted.sessionId number
  rw [found, List.getElem?_eq_none (by rw [counted.created]; exact Nat.not_lt.mp late)] at absent
  cases absent

/-- A step that constructs nothing and sends nothing. -/
theorem Counted.other {events : List (Event Service)} (counted : Counted events world)
    {event : Event Service} (noInitial : initial event = none)
    (noSend : ∀ number, isSend number event = false) (created : next.created = world.created)
    (same : ∀ number, (next.vm number).map Vm.sessionId = (world.vm number).map Vm.sessionId) :
    Counted (events ++ [event]) next := by
  have sends_eq (number : Nat) : sends number (events ++ [event]) = sends number events := by
    rw [sends_append, noSend]
    rfl
  have initials_eq : initials (events ++ [event]) = initials events := by
    rw [initials_append, noInitial]
    exact List.append_nil _
  refine ⟨?_, fun number late => ?_, fun number => ?_⟩
  · rw [initials_eq, created, counted.created]
  · rw [sends_eq]
    exact counted.unsent number (created ▸ late)
  · rw [sends_eq, initials_eq, same, counted.sessionId]

theorem Counted.construct {events : List (Event Service)} (counted : Counted events world)
    (service : Service) (handle_ : UInt32) (sessionId : Int32) :
    Counted (events ++ [.construct service handle_ sessionId])
      (world.construct service handle_ sessionId) := by
  have initials_eq : initials (events ++ [.construct service handle_ sessionId]) =
      initials events ++ [sessionId] := initials_append ..
  have sends_eq (number : Nat) :
      sends number (events ++ [.construct service handle_ sessionId]) = sends number events :=
    sends_append ..
  refine ⟨?_, fun number late => ?_, fun number => ?_⟩
  · rw [initials_eq, List.length_append, counted.created]
    rfl
  · rw [sends_eq]
    exact counted.unsent number (Nat.le_of_succ_le late)
  · rw [sends_eq, initials_eq]
    by_cases new : number = world.created
    · subst new
      have unsent := counted.unsent world.created (Nat.le_refl _)
      have last : (initials events ++ [sessionId])[world.created]? = some sessionId := by
        rw [← counted.created]
        exact List.getElem?_concat_length
      have made : (world.construct service handle_ sessionId).vm world.created = some
          { service, handle_, sessionId, context := {}, alive := true, callbacks := [] } :=
        Function.update_self ..
      rw [made, unsent, last]
      rfl
    · have old : ((world.construct service handle_ sessionId).vm number) = world.vm number :=
        Function.update_of_ne new ..
      rw [old, counted.sessionId]
      congr 1
      rcases Nat.lt_or_gt_of_ne new with below | above
      · exact (List.getElem?_append_left (counted.created ▸ below)).symm
      · rw [List.getElem?_eq_none (by rw [counted.created]; omega),
          List.getElem?_eq_none (by rw [List.length_append, counted.created]; exact above)]

theorem Counted.send {events : List (Event Service)} (counted : Counted events world)
    {sender : Nat} {targetVmId : Int64} {charMsg : Option (List UInt8)} {size : Int64}
    {result : Bool}
    (sent : Address.sendByVmId serviceName world sender targetVmId charMsg size =
      some (result, next)) :
    Counted (events ++ [.sendByVmId sender targetVmId charMsg size]) next := by
  obtain ⟨created, ⟨self, found⟩, sessionId⟩ := sessionId_sendByVmId sent
  have initials_eq : initials (events ++ [.sendByVmId sender targetVmId charMsg size]) =
      initials events := (initials_append ..).trans (List.append_nil _)
  have sends_eq (number : Nat) :
      sends number (events ++ [.sendByVmId sender targetVmId charMsg size]) =
        sends number events + (decide (sender = number)).toNat := sends_append ..
  refine ⟨?_, fun number late => ?_, fun number => ?_⟩
  · rw [initials_eq, created, counted.created]
  · have below := counted.lt_created found
    rw [created] at late
    rw [sends_eq, counted.unsent number late, decide_eq_false (by omega)]
    rfl
  · rw [sends_eq, initials_eq, sessionId]
    split
    · rename_i same
      have before := counted.sessionId number
      rw [decide_eq_true same.symm, Bool.toNat_true, Function.iterate_succ',
        ← Option.map_map, ← before, Option.map_map]
      rfl
    · rename_i different
      rw [decide_eq_false fun same => different same.symm, counted.sessionId]
      rfl

variable [DecidableEq Service]

theorem Counted.step {events : List (Event Service)} (counted : Counted events world)
    {event : Event Service} (stepped : step serviceName world event = some next) :
    Counted (events ++ [event]) next := by
  cases event with
  | construct service handle_ sessionId =>
      cases stepped
      exact counted.construct service handle_ sessionId
  | checkIn registry number =>
      obtain ⟨vm, _, _, ⟨_, _, rfl⟩ | ⟨_, rfl⟩⟩ := Address.step_checkIn stepped
      · exact counted.other rfl (fun _ => rfl) rfl fun _ => rfl
      · exact counted.other rfl (fun _ => rfl) rfl fun _ => sessionId_modify fun _ => rfl
  | expire number =>
      simp only [Address.step] at stepped
      split at stepped
      · cases stepped
        exact counted.other rfl (fun _ => rfl) rfl fun _ => sessionId_modify fun _ => rfl
      · cases stepped
  | runCallback registry number =>
      simp only [Address.step] at stepped
      split at stepped
      · cases stepped
      · split at stepped
        · cases stepped
          exact counted.other rfl (fun _ => rfl) rfl fun _ => sessionId_modify fun _ => rfl
        · cases stepped
  | sendByVmId sender targetVmId charMsg size =>
      obtain ⟨⟨result, after⟩, sent, rfl⟩ := Option.map_eq_some_iff.mp stepped
      exact counted.send sent

theorem counted_of_run {events : List (Event Service)} {world : World Service}
    (ran : (machine serviceName).run events = some world) : Counted events world :=
  (machine serviceName).run_history_invariant Counted
    ⟨rfl, fun _ _ => rfl, fun _ => rfl⟩
    (fun _ _ _ _ counted stepped => counted.step stepped) events world ran

theorem getElem?_sessions (sessionId : Int32) {k calls : Nat} (below : k < calls) :
    (sessions sessionId calls)[k]? = some (Address.newSession^[k + 1] sessionId) := by
  rw [sessions_eq_iterate, List.getElem?_iterate _ _ _ _ below, Function.iterate_succ_apply]

/-- The messages of a VM carry the sessions of its counter, one after the other. -/
theorem session_of_run {events : List (Event Service)} {world : World Service}
    (ran : (machine serviceName).run events = some world) {sender : Nat} {self : Vm Service}
    (found : world.vm sender = some self) (charMsg : Option (List UInt8)) (size : Int64) :
    ∃ sessionId, (initials events)[sender]? = some sessionId ∧
      ∀ calls, sends sender events < calls →
        (sessions sessionId calls)[sends sender events]? =
          some (luaMessage (serviceName self.service) self charMsg size).msg.session := by
  have counted := (counted_of_run ran).sessionId sender
  rw [found] at counted
  obtain ⟨sessionId, isInitial, moved⟩ := Option.map_eq_some_iff.mp counted.symm
  refine ⟨sessionId, isInitial, fun calls below => ?_⟩
  rw [getElem?_sessions sessionId below, Function.iterate_succ_apply', moved]
  rfl

end Messages

end Session

end EasyLua
