import EasyLua.Foundation.Machine

/-!
# The async handle of a VM that shuts down

The `uv_async_t` of a VM is owned by its `cAsync` userdata and by its context, and a
sender owns the context while it delivers a message. `lua_close` collects the VM's
`cThisVM`, its `cAsync` and its `cLoop` in this order, and the last of them deletes the
loop whatever `uv_loop_close` returns. The deleter of the handle is `uv_close`, which
runs on the thread that drops the last reference.
-/

namespace EasyLua

namespace AsyncHandle

variable (Sender : Type)

/-- How far the target VM has come with `lua_close`. -/
inductive Stage
  | running
  /-- `cThisVM.__gc` has dropped its reference to the context. -/
  | contextDropped
  /-- `cAsync.__gc` has dropped its reference to the handle. -/
  | handleDropped
  /-- `cLoop.__gc` has closed and deleted the loop. -/
  | loopDeleted
  deriving DecidableEq

/-- The threads that touch the handle. -/
inductive Party
  | target
  | sender (sender : Sender)
  deriving DecidableEq

/-- The calls on the handle. -/
inductive Call
  | uvAsyncSend
  | uvClose
  deriving DecidableEq

/-- A call on the handle: who made it, and whether the loop still existed. -/
structure Use where
  call : Call
  party : Party Sender
  loopAlive : Bool
  deriving DecidableEq

/-- The target's stage, the senders that own its context, before and after their
`uv_async_send`, and all calls on its handle so far. -/
structure World where
  stage : Stage
  fetched : List Sender
  pushed : List Sender
  uses : List (Use Sender)

/-- One step of a sender or of the target's thread. -/
inductive Event
  /-- `contextMgr.fetch`. -/
  | fetch (sender : Sender)
  /-- `cVmContext::pushMsg`, which calls `uv_async_send`. -/
  | pushMsg (sender : Sender)
  /-- The sender's `shared_ptr` goes out of scope. -/
  | return_ (sender : Sender)
  /-- `cThisVM.__gc`. -/
  | thisVmGc
  /-- `cAsync.__gc`. -/
  | asyncGc
  /-- `cLoop.__gc`. -/
  | loopGc

variable {Sender}

/-- The `cAsync` userdata still owns the handle. -/
def Stage.ownsHandle : Stage → Bool
  | .running => true
  | .contextDropped => true
  | .handleDropped => false
  | .loopDeleted => false

def Stage.loopAlive (stage : Stage) : Bool := stage ≠ .loopDeleted

/-- The context has an owner: its VM, or a sender. -/
def World.contextAlive (world : World Sender) : Bool :=
  decide (world.stage = .running) || !world.fetched.isEmpty || !world.pushed.isEmpty

/-- A call on the handle. -/
def World.use (world : World Sender) (call : Call) (party : Party Sender) : World Sender :=
  { world with uses := world.uses ++ [{ call, party, loopAlive := world.stage.loopAlive }] }

/-- After an owner has gone: the handle is closed if it was the last one. A context
that has no owner left has dropped its own reference. -/
def World.closeUnowned (world : World Sender) (party : Party Sender) : World Sender :=
  if world.contextAlive || world.stage.ownsHandle then world else world.use .uvClose party

variable [DecidableEq Sender]

/-- One step; no result when the event is not enabled. -/
def step (world : World Sender) : Event Sender → Option (World Sender)
  | .fetch sender =>
      if sender ∈ world.fetched ∨ sender ∈ world.pushed then none
      else if world.contextAlive then
        some { world with fetched := world.fetched ++ [sender] }
      else some world
  | .pushMsg sender =>
      if sender ∈ world.fetched then
        some (World.use
          { world with
            fetched := world.fetched.erase sender
            pushed := world.pushed ++ [sender] } .uvAsyncSend (.sender sender))
      else none
  | .return_ sender =>
      if sender ∈ world.pushed then
        some (World.closeUnowned { world with pushed := world.pushed.erase sender }
          (.sender sender))
      else none
  | .thisVmGc =>
      if world.stage = .running then
        some (World.closeUnowned { world with stage := .contextDropped } .target)
      else none
  | .asyncGc =>
      if world.stage = .contextDropped then
        some (World.closeUnowned { world with stage := .handleDropped } .target)
      else none
  | .loopGc =>
      if world.stage = .handleDropped then some { world with stage := .loopDeleted } else none

/-- The senders and the shutdown of one target VM. -/
def machine (Sender : Type) [DecidableEq Sender] : Machine (World Sender) (Event Sender) where
  init := { stage := .running, fetched := [], pushed := [], uses := [] }
  step := step

/-- The handle is only used while its loop exists, and only closed by the target. -/
def Use.Proper (use : Use Sender) : Prop :=
  use.loopAlive = true ∧ (use.call = .uvClose → use.party = .target)

instance : DecidablePred (@Use.Proper Sender) := fun use =>
  inferInstanceAs (Decidable (use.loopAlive = true ∧ _))

/-- No sender owns the context when `cAsync.__gc` runs. -/
def UnsharedAtAsyncGc (world : World Sender) (event : Event Sender) : Prop :=
  event = .asyncGc → world.fetched = [] ∧ world.pushed = []

/-- All uses are proper, and the handle outlives no sender. -/
structure Safe (world : World Sender) : Prop where
  uses : ∀ use ∈ world.uses, use.Proper
  senders : world.stage.ownsHandle = false → world.fetched = [] ∧ world.pushed = []

/-- The `cAsync` userdata is gone, and a sender still owns the handle or has misused it. -/
def Exposed (world : World Sender) : Prop :=
  world.stage.ownsHandle = false ∧
    (world.fetched ≠ [] ∨ world.pushed ≠ [] ∨ ∃ use ∈ world.uses, ¬ use.Proper)

variable {world next : World Sender}

theorem Stage.loopAlive_of_ownsHandle {stage : Stage} (owns : stage.ownsHandle = true) :
    stage.loopAlive = true := by
  cases stage
  · rfl
  · rfl
  · cases owns
  · cases owns

omit [DecidableEq Sender] in
theorem closeUnowned_stage (party : Party Sender) :
    (world.closeUnowned party).stage = world.stage := by
  unfold World.closeUnowned
  split <;> rfl

omit [DecidableEq Sender] in
theorem closeUnowned_fetched (party : Party Sender) :
    (world.closeUnowned party).fetched = world.fetched := by
  unfold World.closeUnowned
  split <;> rfl

omit [DecidableEq Sender] in
theorem closeUnowned_pushed (party : Party Sender) :
    (world.closeUnowned party).pushed = world.pushed := by
  unfold World.closeUnowned
  split <;> rfl

omit [DecidableEq Sender] in
/-- The userdata keeps the handle open. -/
theorem closeUnowned_of_ownsHandle (party : Party Sender)
    (owns : world.stage.ownsHandle = true) : world.closeUnowned party = world := by
  unfold World.closeUnowned
  rw [owns, Bool.or_true, if_pos rfl]

omit [DecidableEq Sender] in
theorem mem_closeUnowned {party : Party Sender} {use : Use Sender}
    (member : use ∈ (world.closeUnowned party).uses) :
    use ∈ world.uses ∨
      use = { call := .uvClose, party, loopAlive := world.stage.loopAlive } := by
  unfold World.closeUnowned at member
  split at member
  · exact Or.inl member
  · rcases List.mem_append.mp member with old | new
    · exact Or.inl old
    · exact Or.inr (List.mem_singleton.mp new)

omit [DecidableEq Sender] in
/-- Without its VM and without senders the context is dead. -/
theorem contextAlive_eq_false (gone : world.stage.ownsHandle = false)
    (noFetched : world.fetched = []) (noPushed : world.pushed = []) :
    world.contextAlive = false := by
  have stopped : world.stage ≠ .running := by
    intro same
    rw [same] at gone
    cases gone
  simp [World.contextAlive, noFetched, noPushed, stopped]

omit [DecidableEq Sender] in
/-- As long as a sender owns the context, so does the `cAsync` userdata. -/
theorem Safe.ownsHandle (safe : Safe world) {sender : Sender}
    (holds : sender ∈ world.fetched ∨ sender ∈ world.pushed) :
    world.stage.ownsHandle = true := by
  by_contra gone
  obtain ⟨noFetched, noPushed⟩ := safe.senders (Bool.eq_false_iff.mpr gone)
  rw [noFetched, noPushed] at holds
  exact holds.elim List.not_mem_nil List.not_mem_nil

/-- Each step keeps the handle safe when `cAsync.__gc` finds no sender. -/
theorem Safe.step (safe : Safe world) {event : Event Sender}
    (unshared : UnsharedAtAsyncGc world event) (stepped : step world event = some next) :
    Safe next := by
  cases event with
  | fetch sender =>
      simp only [AsyncHandle.step] at stepped
      split at stepped
      · cases stepped
      · split at stepped
        · rename_i alive
          cases stepped
          refine ⟨safe.uses, fun gone => ?_⟩
          have stage : world.stage.ownsHandle = false := gone
          obtain ⟨noFetched, noPushed⟩ := safe.senders stage
          rw [contextAlive_eq_false stage noFetched noPushed] at alive
          cases alive
        · cases stepped
          exact safe
  | pushMsg sender =>
      simp only [AsyncHandle.step] at stepped
      split at stepped
      · rename_i holds
        cases stepped
        have owns := safe.ownsHandle (Or.inl holds)
        refine ⟨fun use member => ?_, fun gone => absurd (owns.symm.trans gone) nofun⟩
        rcases List.mem_append.mp member with old | new
        · exact safe.uses use old
        · cases List.mem_singleton.mp new
          exact ⟨Stage.loopAlive_of_ownsHandle owns, nofun⟩
      · cases stepped
  | return_ sender =>
      simp only [AsyncHandle.step] at stepped
      split at stepped
      · rename_i holds
        have owns := safe.ownsHandle (Or.inr holds)
        have kept : World.closeUnowned { world with pushed := world.pushed.erase sender }
            (.sender sender) = { world with pushed := world.pushed.erase sender } :=
          closeUnowned_of_ownsHandle _ owns
        rw [kept] at stepped
        cases stepped
        exact ⟨safe.uses, fun gone => absurd (owns.symm.trans gone) nofun⟩
      · cases stepped
  | thisVmGc =>
      simp only [AsyncHandle.step] at stepped
      split at stepped
      · have kept : World.closeUnowned { world with stage := .contextDropped } .target =
            { world with stage := .contextDropped } := closeUnowned_of_ownsHandle _ rfl
        rw [kept] at stepped
        cases stepped
        exact ⟨safe.uses, nofun⟩
      · cases stepped
  | asyncGc =>
      simp only [AsyncHandle.step] at stepped
      split at stepped
      · cases stepped
        refine ⟨fun use member => ?_, fun _ => ?_⟩
        · rcases mem_closeUnowned member with old | rfl
          · exact safe.uses use old
          · exact ⟨rfl, fun _ => rfl⟩
        · rw [closeUnowned_fetched, closeUnowned_pushed]
          exact unshared rfl
      · cases stepped
  | loopGc =>
      simp only [AsyncHandle.step] at stepped
      split at stepped
      · rename_i stage
        cases stepped
        exact ⟨safe.uses, fun _ => safe.senders (by rw [stage]; rfl)⟩
      · cases stepped

omit [DecidableEq Sender] in
/-- The last owner of an unowned handle closes it. -/
theorem improper_close (world : World Sender) (gone : world.stage.ownsHandle = false)
    (noFetched : world.fetched = []) (noPushed : world.pushed = []) (sender : Sender) :
    ∃ use ∈ (world.closeUnowned (.sender sender)).uses, ¬ use.Proper := by
  have dead := contextAlive_eq_false gone noFetched noPushed
  refine ⟨{ call := .uvClose, party := .sender sender, loopAlive := world.stage.loopAlive }, ?_,
    fun proper => nomatch proper.2 rfl⟩
  unfold World.closeUnowned
  rw [dead, gone, Bool.or_self, if_neg Bool.false_ne_true]
  exact List.mem_append_right _ (List.mem_singleton_self _)

/-- Once the userdata is gone, a sender that owns the context will misuse the handle. -/
theorem Exposed.step (exposed : Exposed world) {event : Event Sender}
    (stepped : step world event = some next) : Exposed next := by
  obtain ⟨gone, reason⟩ := exposed
  cases event with
  | fetch sender =>
      simp only [AsyncHandle.step] at stepped
      split at stepped
      · cases stepped
      · split at stepped
        · cases stepped
          exact ⟨gone, Or.inl (List.append_ne_nil_of_right_ne_nil _ (List.cons_ne_nil _ _))⟩
        · cases stepped
          exact ⟨gone, reason⟩
  | pushMsg sender =>
      simp only [AsyncHandle.step] at stepped
      split at stepped
      · cases stepped
        exact ⟨gone, Or.inr (Or.inl
          (List.append_ne_nil_of_right_ne_nil _ (List.cons_ne_nil _ _)))⟩
      · cases stepped
  | return_ sender =>
      simp only [AsyncHandle.step] at stepped
      split at stepped
      · cases stepped
        unfold Exposed
        rw [closeUnowned_stage, closeUnowned_fetched, closeUnowned_pushed]
        refine ⟨gone, ?_⟩
        by_cases noFetched : world.fetched = []
        · by_cases noPushed : world.pushed.erase sender = []
          · exact Or.inr (Or.inr (improper_close { world with pushed := world.pushed.erase sender }
              gone noFetched noPushed sender))
          · exact Or.inr (Or.inl noPushed)
        · exact Or.inl noFetched
      · cases stepped
  | thisVmGc =>
      simp only [AsyncHandle.step] at stepped
      split at stepped
      · rename_i stage
        rw [stage] at gone
        cases gone
      · cases stepped
  | asyncGc =>
      simp only [AsyncHandle.step] at stepped
      split at stepped
      · rename_i stage
        rw [stage] at gone
        cases gone
      · cases stepped
  | loopGc =>
      simp only [AsyncHandle.step] at stepped
      split at stepped
      · cases stepped
        exact ⟨rfl, reason⟩
      · cases stepped

/-- `cAsync.__gc` with a sender that owns the context exposes the handle. -/
theorem exposed_of_asyncGc (shared : ¬ (world.fetched = [] ∧ world.pushed = []))
    (stepped : step world .asyncGc = some next) : Exposed next := by
  simp only [AsyncHandle.step] at stepped
  split at stepped
  · cases stepped
    unfold Exposed
    rw [closeUnowned_stage, closeUnowned_fetched, closeUnowned_pushed]
    refine ⟨rfl, ?_⟩
    by_cases noFetched : world.fetched = []
    · exact Or.inr (Or.inl fun noPushed => shared ⟨noFetched, noPushed⟩)
    · exact Or.inl noFetched
  · cases stepped

/-- **Use of the handle, exactly.** A run in which `cAsync.__gc` finds no sender that owns
the context uses the handle properly throughout; and once all senders have returned, no
other run has. -/
theorem proper_iff_unsharedAtAsyncGc {events : List (Event Sender)} {last : World Sender}
    (ran : (machine Sender).run events = some last) :
    ((machine Sender).Guarded UnsharedAtAsyncGc (machine Sender).init events →
      ∀ use ∈ last.uses, use.Proper) ∧
    (last.fetched = [] → last.pushed = [] → (∀ use ∈ last.uses, use.Proper) →
      (machine Sender).Guarded UnsharedAtAsyncGc (machine Sender).init events) := by
  constructor
  · intro guarded
    have safe := (machine Sender).run_invariant_of_guarded UnsharedAtAsyncGc Safe
      ⟨nofun, nofun⟩ (fun _ _ _ safe unshared stepped => safe.step unshared stepped)
      events last guarded ran
    exact safe.uses
  · intro noFetched noPushed proper
    rw [Machine.guarded_iff]
    rintro first event second rfl world reached rfl
    by_contra shared
    rw [Machine.run_append, show (machine Sender).run first = some world from reached,
      Option.bind_some, Machine.runFrom_cons] at ran
    obtain ⟨after, stepped, rest⟩ := Option.bind_eq_some_iff.mp ran
    have exposed := (machine Sender).runFrom_invariant Exposed
      (fun _ _ _ exposed stepped => exposed.step stepped) second after last
      (exposed_of_asyncGc shared stepped) rest
    obtain ⟨_, fetched | pushed | ⟨use, member, improper⟩⟩ := exposed
    · exact fetched noFetched
    · exact pushed noPushed
    · exact improper (proper use member)

/-- A sender has fetched the context, and the target VM shuts down before it goes on. -/
def lateSender : List (Event Nat) :=
  [.fetch 1, .thisVmGc, .asyncGc, .loopGc, .pushMsg 1, .return_ 1]

/-- In `lateSender` both calls of the sender come after the deletion of the loop. -/
theorem lateSender_misuses :
    ∃ last, (machine Nat).run lateSender = some last ∧
      last.uses = [{ call := .uvAsyncSend, party := .sender 1, loopAlive := false },
        { call := .uvClose, party := .sender 1, loopAlive := false }] ∧
      ∀ use ∈ last.uses, ¬ use.Proper := by
  exact ⟨_, rfl, rfl, by decide⟩

/-- A sender that returns before the shutdown. -/
def earlySender : List (Event Nat) :=
  [.fetch 1, .pushMsg 1, .return_ 1, .thisVmGc, .asyncGc, .loopGc]

theorem proper_iff_unsharedAtAsyncGc_early :
    ∃ last, (machine Nat).run earlySender = some last ∧ last.uses.length = 2 ∧
      ∀ use ∈ last.uses, use.Proper := by
  obtain ⟨last, ran, both⟩ : ∃ last, (machine Nat).run earlySender = some last ∧
      last.uses.length = 2 := ⟨_, rfl, rfl⟩
  refine ⟨last, ran, both, (proper_iff_unsharedAtAsyncGc ran).1 ?_⟩
  exact .cons nofun rfl <| .cons nofun rfl <| .cons nofun rfl <| .cons nofun rfl <|
    .cons (fun _ => ⟨rfl, rfl⟩) rfl <| .cons nofun rfl trivial

end AsyncHandle

end EasyLua
