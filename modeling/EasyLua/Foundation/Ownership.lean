import EasyLua.Foundation.CountedMemory
import EasyLua.Foundation.Machine
import Mathlib.Data.List.Nodup
import Mathlib.Order.BooleanAlgebra.Set

/-!
# Who owns a reference

Any number of threads run programs over one counted memory, and pass references to each other
through queues. Each reference has one owner: a thread, or the queue that it waits in. A program
is safe when it uses only the references that its thread owns and ends with those that its call
is to leave behind.

When all calls are safe and use only what their threads keep, no step of any run touches a
reference that was destroyed or a block that was freed.
-/

universe u v w

namespace Counted

/-- A program over counted references, with its result. -/
inductive Program (Content : Type u) (Queue : Type v) (α : Type w)
  | done (result : α)
  | make (content : Content) (rest : Nat → Program Content Queue α)
  | copy (reference : Nat) (rest : Nat → Program Content Queue α)
  | destroy (reference : Nat) (rest : Program Content Queue α)
  | read (reference : Nat) (rest : Content → Program Content Queue α)
  /-- The reference is appended to the queue. -/
  | put (reference : Nat) (queue : Queue) (rest : Program Content Queue α)
  /-- The front is removed from the queue, if there is one. -/
  | take (queue : Queue) (rest : Option Nat → Program Content Queue α)
  /-- All references are removed from the queue. -/
  | drain (queue : Queue) (rest : List Nat → Program Content Queue α)

namespace Program

variable {Content : Type u} {Queue : Type v} {α β : Type w}

/-- One program after another. -/
def bind : Program Content Queue α → (α → Program Content Queue β) → Program Content Queue β
  | .done result, next => next result
  | .make content rest, next => .make content fun reference => (rest reference).bind next
  | .copy reference rest, next => .copy reference fun copied => (rest copied).bind next
  | .destroy reference rest, next => .destroy reference (rest.bind next)
  | .read reference rest, next => .read reference fun content => (rest content).bind next
  | .put reference queue rest, next => .put reference queue (rest.bind next)
  | .take queue rest, next => .take queue fun front => (rest front).bind next
  | .drain queue rest, next => .drain queue fun references => (rest references).bind next

instance : Monad (Program Content Queue) where
  pure := .done
  bind := bind

/-- The program uses only references that its thread owns, at first these, and ends with those
that the condition on its result allows. -/
def Safe (post : α → Set Nat → Prop) : Program Content Queue α → Set Nat → Prop
  | .done result, owned => post result owned
  | .make _ rest, owned => ∀ made ∉ owned, (rest made).Safe post (insert made owned)
  | .copy reference rest, owned =>
      reference ∈ owned ∧ ∀ copied ∉ owned, (rest copied).Safe post (insert copied owned)
  | .destroy reference rest, owned =>
      reference ∈ owned ∧ rest.Safe post (owned \ {reference})
  | .read reference rest, owned => reference ∈ owned ∧ ∀ content, (rest content).Safe post owned
  | .put reference _ rest, owned =>
      reference ∈ owned ∧ rest.Safe post (owned \ {reference})
  | .take _ rest, owned =>
      (rest none).Safe post owned ∧
        ∀ front ∉ owned, (rest (some front)).Safe post (insert front owned)
  | .drain _ rest, owned =>
      ∀ references : List Nat, references.Nodup → (∀ reference ∈ references, reference ∉ owned) →
        (rest references).Safe post (owned ∪ {reference | reference ∈ references})

variable {post : β → Set Nat → Prop} {between : α → Set Nat → Prop}

/-- **The rule of sequence.** -/
theorem Safe.bind {program : Program Content Queue α} {next : α → Program Content Queue β}
    {owned : Set Nat} (first : program.Safe between owned)
    (second : ∀ result owned, between result owned → (next result).Safe post owned) :
    (program.bind next).Safe post owned := by
  induction program generalizing owned with
  | done result => exact second result owned first
  | make content rest ih => exact fun made fresh => ih made (first made fresh)
  | copy reference rest ih =>
      exact ⟨first.1, fun copied fresh => ih copied (first.2 copied fresh)⟩
  | destroy reference rest ih => exact ⟨first.1, ih first.2⟩
  | read reference rest ih => exact ⟨first.1, fun content => ih content (first.2 content)⟩
  | put reference queue rest ih => exact ⟨first.1, ih first.2⟩
  | take queue rest ih =>
      exact ⟨ih none first.1, fun front fresh => ih (some front) (first.2 front fresh)⟩
  | drain queue rest ih =>
      exact fun references distinct fresh => ih references (first references distinct fresh)

end Program

/-- What the callers of the threads know of a call. -/
structure Interface (Content : Type u) (Queue : Type v) (Call Result : Type*) where
  body : Call → Program Content Queue Result
  /-- The references that the caller has to keep for the call. -/
  uses : Call → List Nat
  /-- Those of them that the call does not leave to the caller. -/
  takes : Call → List Nat
  /-- The references that the caller is given. -/
  gives : Result → List Nat

/-- The memory, the queues, what is left of the call of each thread, and the references that
its caller keeps. A broken world has used a reference without a block. -/
structure World (Content : Type u) (Queue : Type v) (Thread Result : Type*) where
  memory : Memory Content := {}
  queue : Queue → List Nat := fun _ => []
  program : Thread → Option (Program Content Queue Result) := fun _ => none
  keeps : Thread → List Nat := fun _ => []
  broken : Bool := false

/-- A thread starts a call, or takes the next step of its call. -/
inductive Event (Thread Call : Type*)
  | start (thread : Thread) (call : Call)
  | proceed (thread : Thread)

variable {Content : Type u} {Queue : Type v} {Thread Call Result : Type*}

section Machine

variable [DecidableEq Thread] [DecidableEq Queue]

/-- The thread goes on, after what it has done to the memory. -/
def World.goOn (world : World Content Queue Thread Result) (thread : Thread)
    (program : Program Content Queue Result) (memory : Memory Content) :
    World Content Queue Thread Result :=
  { world with
    memory := memory
    program := Function.update world.program thread (some program) }

/-- The queue has other contents. -/
def World.setQueue (world : World Content Queue Thread Result) (queue : Queue)
    (references : List Nat) : World Content Queue Thread Result :=
  { world with queue := Function.update world.queue queue references }

/-- The next step of a program. -/
def World.proceed (interface : Interface Content Queue Call Result)
    (world : World Content Queue Thread Result) (thread : Thread) :
    Program Content Queue Result → World Content Queue Thread Result
  | .done result =>
      { world with
        program := Function.update world.program thread none
        keeps := Function.update world.keeps thread
          (world.keeps thread ++ interface.gives result) }
  | .make content rest =>
      world.goOn thread (rest (world.memory.make content).1) (world.memory.make content).2
  | .copy reference rest =>
      match world.memory.copy reference with
      | some (copied, memory) => world.goOn thread (rest copied) memory
      | none => { world with broken := true }
  | .destroy reference rest =>
      match world.memory.destroy reference with
      | some memory => world.goOn thread rest memory
      | none => { world with broken := true }
  | .read reference rest =>
      match world.memory.read reference with
      | some content => world.goOn thread (rest content) world.memory
      | none => { world with broken := true }
  | .put reference queue rest =>
      (world.setQueue queue (world.queue queue ++ [reference])).goOn thread rest world.memory
  | .take queue rest =>
      match world.queue queue with
      | [] => world.goOn thread (rest none) world.memory
      | front :: others =>
          (world.setQueue queue others).goOn thread (rest (some front)) world.memory
  | .drain queue rest =>
      (world.setQueue queue []).goOn thread (rest (world.queue queue)) world.memory

/-- One event; no result when it is not enabled, or the world is broken. -/
def step (interface : Interface Content Queue Call Result)
    (world : World Content Queue Thread Result) :
    Event Thread Call → Option (World Content Queue Thread Result)
  | .start thread call =>
      if world.broken then none
      else
        match world.program thread with
        | some _ => none
        | none => some { world with
            program := Function.update world.program thread (some (interface.body call))
            keeps := Function.update world.keeps thread
              ((world.keeps thread).filter (· ∉ interface.takes call)) }
  | .proceed thread =>
      if world.broken then none
      else (world.program thread).map (world.proceed interface thread)

/-- The threads with these calls, at first with an empty memory. -/
def machine (interface : Interface Content Queue Call Result) :
    Machine (World Content Queue Thread Result) (Event Thread Call) where
  init := {}
  step := step interface

end Machine

/-- The caller keeps what its call uses. -/
def Legal (interface : Interface Content Queue Call Result)
    (world : World Content Queue Thread Result) : Event Thread Call → Prop
  | .start thread call => ∀ reference ∈ interface.uses call, reference ∈ world.keeps thread
  | .proceed _ => True

instance (interface : Interface Content Queue Call Result)
    (world : World Content Queue Thread Result) (event : Event Thread Call) :
    Decidable (Legal interface world event) :=
  match event with
  | .start thread call =>
      inferInstanceAs (Decidable (∀ reference ∈ interface.uses call,
        reference ∈ world.keeps thread))
  | .proceed _ => .isTrue trivial

/-- Who owns a reference. -/
inductive Owner (Thread : Type*) (Queue : Type v)
  | thread (thread : Thread)
  | queue (queue : Queue)

/-- What a thread owns. -/
def Owned (owner : Nat → Option (Owner Thread Queue)) (thread : Thread) : Set Nat :=
  {reference | owner reference = some (.thread thread)}

/-- At the end of a call its thread owns what the caller keeps and what it is given. -/
def Leaves (interface : Interface Content Queue Call Result) (keeps : Set Nat) (result : Result)
    (left : Set Nat) : Prop :=
  left = keeps ∪ {reference | reference ∈ interface.gives result}

/-- A call is safe when the caller keeps what it uses. -/
def SafeCall (interface : Interface Content Queue Call Result) (call : Call) : Prop :=
  ∀ owned : Set Nat, (∀ reference ∈ interface.uses call, reference ∈ owned) →
    (interface.body call).Safe
      (Leaves interface {reference ∈ owned | reference ∉ interface.takes call}) owned

/-- Each reference that was not destroyed has one owner, and the programs are safe with what
their threads own. -/
structure Sound (interface : Interface Content Queue Call Result)
    (owner : Nat → Option (Owner Thread Queue)) (world : World Content Queue Thread Result) :
    Prop where
  exact : Exact world.memory
  owned : ∀ reference, world.memory.target reference = none ↔ owner reference = none
  queued : ∀ queue reference, reference ∈ world.queue queue ↔ owner reference = some (.queue queue)
  distinct : ∀ queue, (world.queue queue).Nodup
  idle : ∀ thread, world.program thread = none →
    Owned owner thread = {reference | reference ∈ world.keeps thread}
  running : ∀ thread program, world.program thread = some program →
    program.Safe (Leaves interface {reference | reference ∈ world.keeps thread})
      (Owned owner thread)
  intact : world.broken = false

/-! ## Owners -/

section Owners

variable {owner : Nat → Option (Owner Thread Queue)} {thread other : Thread}
  {reference : Nat} {new : Option (Owner Thread Queue)}

theorem owned_gain :
    Owned (Function.update owner reference (some (.thread thread))) thread =
      insert reference (Owned owner thread) := by
  ext asked
  by_cases same : asked = reference
  · simp [Owned, same]
  · simp [Owned, same]

theorem owned_lose (gone : new ≠ some (.thread thread)) :
    Owned (Function.update owner reference new) thread = Owned owner thread \ {reference} := by
  ext asked
  by_cases same : asked = reference
  · simp [Owned, same, gone]
  · simp [Owned, same]

theorem owned_update (before : owner reference ≠ some (.thread other))
    (after : new ≠ some (.thread other)) :
    Owned (Function.update owner reference new) other = Owned owner other := by
  rw [owned_lose after]
  exact Set.sdiff_singleton_eq_self before

end Owners

section Steps

variable [DecidableEq Thread] {interface : Interface Content Queue Call Result}
  {owner : Nat → Option (Owner Thread Queue)} {world : World Content Queue Thread Result}
  {thread : Thread}

omit [DecidableEq Thread] in
/-- What a thread owns is not destroyed. -/
theorem Sound.live (sound : Sound interface owner world) {reference : Nat}
    {someone : Owner Thread Queue} (owns : owner reference = some someone) :
    ∃ block, world.memory.target reference = some block := by
  apply Option.ne_none_iff_exists'.mp
  rw [Ne, sound.owned reference, owns]
  exact Option.some_ne_none someone

omit [DecidableEq Thread] in
/-- Nobody owns the next reference. -/
theorem Sound.next (sound : Sound interface owner world) : owner world.memory.next = none :=
  (sound.owned _).mp sound.exact.fresh

/-- A thread goes on, and the references of the other ones stay theirs. -/
theorem Sound.goOn (sound : Sound interface owner world) {memory : Memory Content}
    {queue : Queue → List Nat} {after : Nat → Option (Owner Thread Queue)}
    {program : Program Content Queue Result} (exact_ : Exact memory)
    (owned : ∀ reference, memory.target reference = none ↔ after reference = none)
    (queued : ∀ name reference, reference ∈ queue name ↔ after reference = some (.queue name))
    (distinct : ∀ name, (queue name).Nodup)
    (others : ∀ other, other ≠ thread → Owned after other = Owned owner other)
    (safe : program.Safe (Leaves interface {reference | reference ∈ world.keeps thread})
      (Owned after thread)) :
    Sound interface after ({ world with queue := queue }.goOn thread program memory) where
  exact := exact_
  owned := owned
  queued := queued
  distinct := distinct
  idle := by
    intro other idle
    by_cases same : other = thread
    · simp [World.goOn, same] at idle
    · rw [others other same]
      simp only [World.goOn, Function.update_of_ne same] at idle
      exact sound.idle other idle
  running := by
    intro other running found
    by_cases same : other = thread
    · simp only [World.goOn, same, Function.update_self, Option.some.injEq] at found
      rw [← found, same]
      exact safe
    · rw [others other same]
      simp only [World.goOn, Function.update_of_ne same] at found
      exact sound.running other running found
  intact := sound.intact

/-- One reference gets another owner, or none. -/
theorem Sound.pass (sound : Sound interface owner world) {memory : Memory Content}
    {queue : Queue → List Nat} {reference : Nat} {new : Option (Owner Thread Queue)}
    {program : Program Content Queue Result} (exact_ : Exact memory)
    (elsewhere : ∀ other, other ≠ reference →
      memory.target other = world.memory.target other)
    (here : memory.target reference = none ↔ new = none)
    (before : ∀ other, other ≠ thread → owner reference ≠ some (.thread other))
    (after : ∀ other, other ≠ thread → new ≠ some (.thread other))
    (queued : ∀ name other, other ∈ queue name ↔
      Function.update owner reference new other = some (.queue name))
    (distinct : ∀ name, (queue name).Nodup)
    (safe : program.Safe (Leaves interface {reference | reference ∈ world.keeps thread})
      (Owned (Function.update owner reference new) thread)) :
    Sound interface (Function.update owner reference new)
      ({ world with queue := queue }.goOn thread program memory) := by
  refine sound.goOn exact_ ?_ queued distinct ?_ safe
  · intro other
    by_cases same : other = reference
    · simp [same, here]
    · simp [same, elsewhere other same, sound.owned other]
  · intro other different
    exact owned_update (before other different) (after other different)

omit [DecidableEq Thread] in
/-- The queues stay as they are when a reference that is in none of them goes to none. -/
theorem Sound.queues (sound : Sound interface owner world) {reference : Nat}
    {new : Option (Owner Thread Queue)} (outside : ∀ queue, owner reference ≠ some (.queue queue))
    (elsewhere : ∀ queue, new ≠ some (.queue queue)) (queue : Queue) (other : Nat) :
    other ∈ world.queue queue ↔
      Function.update owner reference new other = some (.queue queue) := by
  rw [sound.queued]
  by_cases same : other = reference
  · subst same
    simp [outside queue, elsewhere queue]
  · simp [same]

end Steps

/-! ## Every step keeps the owners -/

section Steps

variable [DecidableEq Thread] {interface : Interface Content Queue Call Result}
  {owner : Nat → Option (Owner Thread Queue)} {world next : World Content Queue Thread Result}
  {thread : Thread} {reference : Nat}

/-- A thread gets a reference that is new. -/
theorem Sound.acquire (sound : Sound interface owner world) {memory : Memory Content}
    {block : Nat} {program : Program Content Queue Result} (exact_ : Exact memory)
    (target : memory.target = Function.update world.memory.target world.memory.next (some block))
    (safe : program.Safe (Leaves interface {reference | reference ∈ world.keeps thread})
      (insert world.memory.next (Owned owner thread))) :
    ∃ after, Sound interface after (world.goOn thread program memory) := by
  have nobody := sound.next
  refine ⟨Function.update owner world.memory.next (some (.thread thread)),
    sound.pass exact_ ?_ ?_ ?_ ?_ (sound.queues ?_ ?_) sound.distinct ?_⟩
  · intro other different
    rw [target, Function.update_of_ne different]
  · simp [target]
  · simp [nobody]
  · intro other different same
    cases same
    exact different rfl
  · simp [nobody]
  · simp
  · rw [owned_gain]
    exact safe

omit [DecidableEq Thread] in
/-- The next reference is not among those of a thread. -/
theorem Sound.next_not_owned (sound : Sound interface owner world) :
    world.memory.next ∉ Owned owner thread := by
  intro owns
  cases sound.next.symm.trans owns

theorem Sound.make (sound : Sound interface owner world) {content : Content}
    {rest : Nat → Program Content Queue Result}
    (safe : (Program.make content rest).Safe
      (Leaves interface {reference | reference ∈ world.keeps thread}) (Owned owner thread)) :
    ∃ after, Sound interface after
      (world.goOn thread (rest world.memory.next) (world.memory.make content).2) :=
  sound.acquire (sound.exact.make content) rfl (safe world.memory.next sound.next_not_owned)

theorem Sound.copy (sound : Sound interface owner world)
    {rest : Nat → Program Content Queue Result}
    (safe : (Program.copy reference rest).Safe
      (Leaves interface {reference | reference ∈ world.keeps thread}) (Owned owner thread)) :
    ∃ memory after, world.memory.copy reference = some (world.memory.next, memory) ∧
      Sound interface after (world.goOn thread (rest world.memory.next) memory) := by
  obtain ⟨mine, after⟩ := safe
  obtain ⟨block, leads⟩ := sound.live mine
  obtain ⟨copied, exact_⟩ := sound.exact.copy leads
  obtain ⟨owner', sound'⟩ :=
    sound.acquire exact_ rfl (after world.memory.next sound.next_not_owned)
  exact ⟨world.memory.gain block, owner', copied, sound'⟩

theorem Sound.destroy (sound : Sound interface owner world) {rest : Program Content Queue Result}
    (safe : (Program.destroy reference rest).Safe
      (Leaves interface {reference | reference ∈ world.keeps thread}) (Owned owner thread)) :
    ∃ memory after, world.memory.destroy reference = some memory ∧
      Sound interface after (world.goOn thread rest memory) := by
  obtain ⟨mine, after⟩ := safe
  obtain ⟨block, leads⟩ := sound.live mine
  obtain ⟨destroyed, exact_⟩ := sound.exact.destroy leads
  have owns : owner reference = some (.thread thread) := mine
  refine ⟨world.memory.lose block reference, Function.update owner reference none, destroyed,
    sound.pass exact_ ?_ ?_ ?_ ?_ (sound.queues ?_ ?_) sound.distinct ?_⟩
  · intro other different
    simp [Memory.lose, different]
  · simp [Memory.lose]
  · intro other different same
    cases owns.symm.trans same
    exact different rfl
  · simp
  · simp [owns]
  · simp
  · have gone : (none : Option (Owner Thread Queue)) ≠ some (.thread thread) := by simp
    rw [owned_lose gone]
    exact after

theorem Sound.read (sound : Sound interface owner world)
    {rest : Content → Program Content Queue Result}
    (safe : (Program.read reference rest).Safe
      (Leaves interface {reference | reference ∈ world.keeps thread}) (Owned owner thread)) :
    ∃ content, world.memory.read reference = some content ∧
      Sound interface owner (world.goOn thread (rest content) world.memory) := by
  obtain ⟨mine, after⟩ := safe
  obtain ⟨block, leads⟩ := sound.live mine
  obtain ⟨content, found, _⟩ := sound.exact.read leads
  exact ⟨content, found, sound.goOn sound.exact sound.owned sound.queued sound.distinct
    (fun _ _ => rfl) (after content)⟩

section Queues

variable [DecidableEq Queue] {queue : Queue}

/-- A reference waits in a queue now. -/
theorem Sound.put (sound : Sound interface owner world) {rest : Program Content Queue Result}
    (safe : (Program.put reference queue rest).Safe
      (Leaves interface {reference | reference ∈ world.keeps thread}) (Owned owner thread)) :
    ∃ after, Sound interface after
      ((world.setQueue queue (world.queue queue ++ [reference])).goOn thread rest
        world.memory) := by
  obtain ⟨mine, after⟩ := safe
  obtain ⟨block, leads⟩ := sound.live mine
  have owns : owner reference = some (.thread thread) := mine
  have outside (name : Queue) : reference ∉ world.queue name := by
    rw [sound.queued, owns]
    simp
  refine ⟨Function.update owner reference (some (.queue queue)),
    sound.pass sound.exact ?_ ?_ ?_ ?_ ?_ ?_ ?_⟩
  · exact fun _ _ => rfl
  · simp [leads]
  · intro other different same
    cases owns.symm.trans same
    exact different rfl
  · simp
  · intro name other
    by_cases itself : other = reference
    · subst itself
      by_cases same : name = queue
      · simp [same]
      · simp [same, Ne.symm same, outside name]
    · by_cases same : name = queue
      · simp [same, itself, sound.queued queue other]
      · simp [same, itself, sound.queued name other]
  · intro name
    by_cases same : name = queue
    · subst same
      rw [Function.update_self]
      exact List.nodup_append_comm.mpr (List.nodup_cons.mpr ⟨outside name, sound.distinct name⟩)
    · rw [Function.update_of_ne same]
      exact sound.distinct name
  · have gone : some (Owner.queue queue) ≠ some (.thread thread) := by simp
    rw [owned_lose gone]
    exact after

/-- A reference has waited in a queue. -/
theorem Sound.take (sound : Sound interface owner world) {front : Nat} {others : List Nat}
    (filled : world.queue queue = front :: others)
    {rest : Option Nat → Program Content Queue Result}
    (safe : (Program.take queue rest).Safe
      (Leaves interface {reference | reference ∈ world.keeps thread}) (Owned owner thread)) :
    ∃ after, Sound interface after
      ((world.setQueue queue others).goOn thread (rest (some front)) world.memory) := by
  have waited : owner front = some (.queue queue) := by
    rw [← sound.queued, filled]
    exact List.mem_cons_self
  obtain ⟨block, leads⟩ := sound.live waited
  have distinct := sound.distinct queue
  rw [filled] at distinct
  obtain ⟨gone, kept⟩ := List.nodup_cons.mp distinct
  have notMine : front ∉ Owned owner thread := by
    intro mine
    cases waited.symm.trans mine
  refine ⟨Function.update owner front (some (.thread thread)),
    sound.pass sound.exact ?_ ?_ ?_ ?_ ?_ ?_ ?_⟩
  · exact fun _ _ => rfl
  · simp [leads]
  · simp [waited]
  · intro other different same
    cases same
    exact different rfl
  · intro name other
    by_cases itself : other = front
    · subst itself
      by_cases same : name = queue
      · simp [same, gone]
      · have elsewhere : other ∉ world.queue name := by
          rw [sound.queued, waited]
          simp [Ne.symm same]
        simp [same, elsewhere]
    · by_cases same : name = queue
      · simp [same, itself, ← sound.queued queue other, filled]
      · simp [same, itself, sound.queued name other]
  · intro name
    by_cases same : name = queue
    · subst same
      rw [Function.update_self]
      exact kept
    · rw [Function.update_of_ne same]
      exact sound.distinct name
  · rw [owned_gain]
    exact safe.2 front notMine

/-- A queue is left empty. -/
theorem Sound.drain (sound : Sound interface owner world)
    {rest : List Nat → Program Content Queue Result}
    (safe : (Program.drain queue rest).Safe
      (Leaves interface {reference | reference ∈ world.keeps thread}) (Owned owner thread)) :
    ∃ after, Sound interface after
      ((world.setQueue queue []).goOn thread (rest (world.queue queue)) world.memory) := by
  have waited (reference : Nat) (member : reference ∈ world.queue queue) :
      owner reference = some (.queue queue) := (sound.queued queue reference).mp member
  refine ⟨fun reference => if reference ∈ world.queue queue then some (.thread thread)
    else owner reference, sound.goOn sound.exact ?_ ?_ ?_ ?_ ?_⟩
  · intro reference
    by_cases member : reference ∈ world.queue queue
    · simp [member, sound.owned reference, waited reference member]
    · simp [member, sound.owned reference]
  · intro name reference
    by_cases member : reference ∈ world.queue queue
    · by_cases same : name = queue
      · simp [same, member]
      · simp [same, member, sound.queued name reference, waited reference member, Ne.symm same]
    · by_cases same : name = queue
      · simp [same, member, ← sound.queued queue reference]
      · simp [same, member, sound.queued name reference]
  · intro name
    by_cases same : name = queue
    · simp [same]
    · rw [Function.update_of_ne same]
      exact sound.distinct name
  · intro other different
    ext reference
    by_cases member : reference ∈ world.queue queue
    · simp [Owned, member, waited reference member, Ne.symm different]
    · simp [Owned, member]
  · have now := safe (world.queue queue) (sound.distinct queue) (by
      intro reference member mine
      cases (waited reference member).symm.trans mine)
    have same : Owned (fun reference => if reference ∈ world.queue queue then
        some (Owner.thread thread) else owner reference) thread =
          Owned owner thread ∪ {reference | reference ∈ world.queue queue} := by
      ext reference
      by_cases member : reference ∈ world.queue queue
      · simp [Owned, member]
      · simp [Owned, member]
    rw [same]
    exact now

/-- A call ends, and its caller keeps what is left. -/
theorem Sound.finish (sound : Sound interface owner world) {result : Result}
    (left : Leaves interface {reference | reference ∈ world.keeps thread} result
      (Owned owner thread)) :
    Sound interface owner (world.proceed interface thread (.done result)) where
  exact := sound.exact
  owned := sound.owned
  queued := sound.queued
  distinct := sound.distinct
  idle := by
    intro other idle
    by_cases same : other = thread
    · rw [same, left]
      ext reference
      simp [World.proceed]
    · simp only [World.proceed, Function.update_of_ne same] at idle ⊢
      exact sound.idle other idle
  running := by
    intro other program found
    by_cases same : other = thread
    · simp [World.proceed, same] at found
    · simp only [World.proceed, Function.update_of_ne same] at found ⊢
      exact sound.running other program found
  intact := sound.intact

omit [DecidableEq Queue] in
/-- A call starts with what its caller keeps. -/
theorem Sound.start (sound : Sound interface owner world) {call : Call}
    (idle : world.program thread = none)
    (legal : ∀ reference ∈ interface.uses call, reference ∈ world.keeps thread)
    (safe : SafeCall interface call) :
    Sound interface owner { world with
      program := Function.update world.program thread (some (interface.body call))
      keeps := Function.update world.keeps thread
        ((world.keeps thread).filter (· ∉ interface.takes call)) } where
  exact := sound.exact
  owned := sound.owned
  queued := sound.queued
  distinct := sound.distinct
  idle := by
    intro other still
    by_cases same : other = thread
    · simp [same] at still
    · simp only [Function.update_of_ne same] at still ⊢
      exact sound.idle other still
  running := by
    intro other program found
    by_cases same : other = thread
    · subst same
      simp only [Function.update_self, Option.some.injEq] at found ⊢
      rw [← found, sound.idle other idle]
      have now := safe {reference | reference ∈ world.keeps other} legal
      simpa using now
    · simp only [Function.update_of_ne same] at found ⊢
      exact sound.running other program found
  intact := sound.intact

theorem Sound.proceed (sound : Sound interface owner world)
    {program : Program Content Queue Result} (running : world.program thread = some program) :
    ∃ after, Sound interface after (world.proceed interface thread program) := by
  have safe := sound.running thread program running
  cases program with
  | done result => exact ⟨owner, sound.finish safe⟩
  | make content rest => exact sound.make safe
  | copy reference rest =>
      obtain ⟨memory, after, copied, sound'⟩ := sound.copy safe
      refine ⟨after, ?_⟩
      simp only [World.proceed, copied]
      exact sound'
  | destroy reference rest =>
      obtain ⟨memory, after, destroyed, sound'⟩ := sound.destroy safe
      refine ⟨after, ?_⟩
      simp only [World.proceed, destroyed]
      exact sound'
  | read reference rest =>
      obtain ⟨content, found, sound'⟩ := sound.read safe
      refine ⟨owner, ?_⟩
      simp only [World.proceed, found]
      exact sound'
  | put reference queue rest => exact sound.put safe
  | take queue rest =>
      cases filled : world.queue queue with
      | nil =>
          refine ⟨owner, ?_⟩
          simp only [World.proceed, filled]
          exact sound.goOn sound.exact sound.owned sound.queued sound.distinct
            (fun _ _ => rfl) safe.1
      | cons front others =>
          obtain ⟨after, sound'⟩ := sound.take filled safe
          refine ⟨after, ?_⟩
          simp only [World.proceed, filled]
          exact sound'
  | drain queue rest => exact sound.drain safe

/-- **Step lemma.** Safe calls that use only what their callers keep stay sound. -/
theorem Sound.step (sound : Sound interface owner world)
    (calls : ∀ call, SafeCall interface call) {event : Event Thread Call}
    (legal : Legal interface world event)
    (stepped : Counted.step interface world event = some next) :
    ∃ after, Sound interface after next := by
  have intact : ¬ world.broken = true := by simp [sound.intact]
  cases event with
  | start thread call =>
      simp only [Counted.step, if_neg intact] at stepped
      split at stepped
      · cases stepped
      · rename_i idle
        cases stepped
        exact ⟨owner, sound.start idle legal (calls call)⟩
  | proceed thread =>
      simp only [Counted.step, if_neg intact, Option.map_eq_some_iff] at stepped
      obtain ⟨program, running, rfl⟩ := stepped
      exact sound.proceed running

/-- **Run lemma.** -/
theorem sound_of_run (calls : ∀ call, SafeCall interface call)
    {events : List (Event Thread Call)}
    (legal : (machine interface).Guarded (Legal interface) (machine interface).init events)
    (ran : (machine interface).run events = some world) :
    ∃ owner, Sound interface owner world := by
  refine (machine interface).run_invariant_of_guarded (Legal interface)
    (fun world => ∃ owner, Sound interface owner world) ?_ ?_ events world legal ran
  · refine ⟨fun _ => none, exact_empty, ?_, ?_, ?_, ?_, ?_, rfl⟩
    · exact fun _ => ⟨fun _ => rfl, fun _ => rfl⟩
    · intro queue reference
      simp [machine]
    · exact fun _ => List.nodup_nil
    · intro thread _
      simp [Owned, machine]
    · intro thread program running
      cases running
  · intro world event next ⟨owner, sound⟩ legal stepped
    exact sound.step calls legal stepped

end Queues

omit [DecidableEq Thread] in
/-- When no call is running, every reference waits in a queue or is kept by a caller. -/
theorem Sound.accounted (sound : Sound interface owner world)
    (idle : ∀ thread, world.program thread = none) {block : Nat}
    (leads : world.memory.target reference = some block) :
    (∃ queue, reference ∈ world.queue queue) ∨ ∃ thread, reference ∈ world.keeps thread := by
  cases owns : owner reference with
  | none =>
      rw [(sound.owned reference).mpr owns] at leads
      cases leads
  | some someone =>
      cases someone with
      | queue queue => exact Or.inl ⟨queue, (sound.queued queue reference).mpr owns⟩
      | thread thread =>
          have mine : reference ∈ Owned owner thread := owns
          rw [sound.idle thread (idle thread)] at mine
          exact Or.inr ⟨thread, mine⟩

end Steps

end Counted
