import EasyLua.Foundation.Sharing

/-!
# Memory with counted references

Blocks that are reached through references. A block counts its references: it is made with one,
a copy makes one more, and when the last one is destroyed the block is freed. Whoever uses a
reference that was destroyed, or one to a freed block, gets no answer.

The counts are an implementation of shared ownership: they follow the pool in which each block
has its references as owners.
-/

namespace Counted

open Sharing (Pool Accounts)

/-- A number for each block and for each reference, in the order in which they were made. -/
structure Memory (Content : Type*) where
  /-- What the blocks were made with. -/
  made : List Content := []
  /-- The blocks that were freed, the latest first. -/
  freed : List Nat := []
  count : Nat → Nat := fun _ => 0
  /-- The block that a reference leads to, until the reference is destroyed. -/
  target : Nat → Option Nat := fun _ => none
  next : Nat := 0

namespace Memory

variable {Content : Type*} (memory : Memory Content)

/-- The block behind a reference. -/
def follow (reference : Nat) : Option Nat :=
  match memory.target reference with
  | some block => if block ∈ memory.freed then none else some block
  | none => none

/-- A new block and its first reference. -/
def make (content : Content) : Nat × Memory Content :=
  (memory.next,
    { memory with
      made := memory.made ++ [content]
      count := Function.update memory.count memory.made.length 1
      target := Function.update memory.target memory.next (some memory.made.length)
      next := memory.next + 1 })

/-- The block has a reference more. -/
def gain (block : Nat) : Memory Content :=
  { memory with
    count := Function.update memory.count block (memory.count block + 1)
    target := Function.update memory.target memory.next (some block)
    next := memory.next + 1 }

/-- The block has a reference less, and is freed when it was the last one. -/
def lose (block reference : Nat) : Memory Content :=
  { memory with
    freed := if memory.count block = 1 then block :: memory.freed else memory.freed
    count := Function.update memory.count block (memory.count block - 1)
    target := Function.update memory.target reference none }

/-- Another reference to the same block. -/
def copy (reference : Nat) : Option (Nat × Memory Content) :=
  (memory.follow reference).map fun block => (memory.next, memory.gain block)

/-- A reference is destroyed. -/
def destroy (reference : Nat) : Option (Memory Content) :=
  (memory.follow reference).map fun block => memory.lose block reference

/-- What the block behind a reference holds. -/
def read (reference : Nat) : Option Content :=
  (memory.follow reference).bind fun block => memory.made[block]?

end Memory

variable {Content : Type*} {memory : Memory Content} {pool : Pool Nat Nat}
  {reference block : Nat}

/-- The owners of a block in the pool are its references, and the block counts them. -/
structure Follows (memory : Memory Content) (pool : Pool Nat Nat) : Prop where
  accounts : Accounts memory.freed pool
  unmade : ∀ block, pool.owners block = none ↔ memory.made.length ≤ block
  counted : ∀ block references, pool.owners block = some references →
    references.Nodup ∧ references.length = memory.count block ∧
      ∀ reference, reference ∈ references ↔ memory.target reference = some block
  inside : ∀ reference block, memory.target reference = some block → block < memory.made.length
  fresh : ∀ reference, memory.next ≤ reference → memory.target reference = none

/-- The counts are those of some pool. -/
def Exact (memory : Memory Content) : Prop := ∃ pool, Follows memory pool

theorem exact_empty : Exact ({} : Memory Content) := by
  refine ⟨Pool.empty, Sharing.accounts_empty, ?_, ?_, ?_, ?_⟩
  · simp [Pool.empty]
  · intro block references owned
    cases owned
  · intro reference block leads
    cases leads
  · intro reference _
    rfl

/-- The references to a block are its owners, of whom there is one at least. -/
theorem Follows.owners (follows : Follows memory pool)
    (leads : memory.target reference = some block) :
    ∃ references, pool.owners block = some references ∧ reference ∈ references := by
  cases found : pool.owners block with
  | none =>
      have unmade := (follows.unmade block).mp found
      exact absurd (follows.inside reference block leads) (Nat.not_lt.mpr unmade)
  | some references =>
      obtain ⟨_, _, owner_iff⟩ := follows.counted block references found
      exact ⟨references, rfl, (owner_iff reference).mpr leads⟩

/-- Nobody gets lost: a reference that was not destroyed leads to a block that was not freed. -/
theorem Exact.follow (exact_ : Exact memory) (leads : memory.target reference = some block) :
    memory.follow reference = some block := by
  obtain ⟨pool, follows⟩ := exact_
  obtain ⟨references, owned, member⟩ := follows.owners leads
  have kept := follows.accounts.not_mem owned member
  unfold Memory.follow
  simp [leads, kept]

/-- What is read is what the block was made with. -/
theorem Exact.read (exact_ : Exact memory) (leads : memory.target reference = some block) :
    ∃ content, memory.read reference = some content ∧ memory.made[block]? = some content := by
  have inside : block < memory.made.length := by
    obtain ⟨pool, follows⟩ := exact_
    exact follows.inside reference block leads
  have found : memory.made[block]? = some memory.made[block] := List.getElem?_eq_getElem inside
  refine ⟨memory.made[block], ?_, found⟩
  unfold Memory.read
  rw [exact_.follow leads, Option.bind_some, found]

theorem Exact.freed_nodup (exact_ : Exact memory) : memory.freed.Nodup := by
  obtain ⟨pool, follows⟩ := exact_
  exact follows.accounts.nodup

/-- The freed blocks are those that no reference leads to any more. -/
theorem Exact.mem_freed_iff (exact_ : Exact memory) (block : Nat) :
    block ∈ memory.freed ↔
      block < memory.made.length ∧ ∀ reference, memory.target reference ≠ some block := by
  obtain ⟨pool, follows⟩ := exact_
  rw [follows.accounts.mem_iff]
  constructor
  · intro empty
    constructor
    · apply Nat.lt_of_not_le
      intro beyond
      cases empty.symm.trans ((follows.unmade block).mpr beyond)
    · intro reference leads
      obtain ⟨_, _, owner_iff⟩ := follows.counted block [] empty
      cases (owner_iff reference).mpr leads
  · intro ⟨inside, none_⟩
    cases found : pool.owners block with
    | none => exact absurd inside (Nat.not_lt.mpr ((follows.unmade block).mp found))
    | some references =>
        obtain ⟨_, _, owner_iff⟩ := follows.counted block references found
        cases references with
        | nil => rfl
        | cons first rest => exact absurd ((owner_iff first).mp List.mem_cons_self) (none_ first)

/-- A block counts its references. -/
theorem Exact.count (exact_ : Exact memory) (inside : block < memory.made.length) :
    ∃ references : List Nat, references.Nodup ∧
      (∀ reference, reference ∈ references ↔ memory.target reference = some block) ∧
      memory.count block = references.length := by
  obtain ⟨pool, follows⟩ := exact_
  cases found : pool.owners block with
  | none => exact absurd inside (Nat.not_lt.mpr ((follows.unmade block).mp found))
  | some references =>
      obtain ⟨distinct, length, owner_iff⟩ := follows.counted block references found
      exact ⟨references, distinct, owner_iff, length.symm⟩

theorem Exact.fresh (exact_ : Exact memory) : memory.target memory.next = none := by
  obtain ⟨pool, follows⟩ := exact_
  exact follows.fresh memory.next (Nat.le_refl _)

/-! ## The operations -/

/-- One reference more is made, and its block has it as a further owner. -/
theorem Follows.refer (follows : Follows memory pool) {references : List Nat} {made : List Content}
    (accounts : Accounts memory.freed
      ⟨Function.update pool.owners block (some (memory.next :: references))⟩)
    (unmade : ∀ other, other ≠ block →
      (memory.made.length ≤ other ↔ made.length ≤ other))
    (longer : memory.made.length ≤ made.length) (inside : block < made.length)
    (distinct : references.Nodup)
    (owner_iff : ∀ reference, reference ∈ references ↔ memory.target reference = some block) :
    Exact { memory with
      made := made
      count := Function.update memory.count block (references.length + 1)
      target := Function.update memory.target memory.next (some block)
      next := memory.next + 1 } := by
  have unknown := follows.fresh memory.next (Nat.le_refl _)
  refine ⟨_, accounts, ?_, ?_, ?_, ?_⟩
  · intro other
    by_cases same : other = block
    · subst same
      simp [inside]
    · simp [same, follows.unmade other, unmade other same]
  · intro other others owned
    by_cases same : other = block
    · subst same
      simp only [Function.update_self, Option.some.injEq] at owned
      subst owned
      refine ⟨List.nodup_cons.mpr ⟨?_, distinct⟩, by simp, ?_⟩
      · rw [owner_iff, unknown]
        simp
      · intro asked
        by_cases isNew : asked = memory.next
        · simp [isNew]
        · simp [isNew, owner_iff asked]
    · simp only [Function.update_of_ne same] at owned
      obtain ⟨others_distinct, length, others_iff⟩ := follows.counted other others owned
      refine ⟨others_distinct, by simp [same, length], ?_⟩
      intro asked
      rw [others_iff asked]
      by_cases isNew : asked = memory.next
      · subst isNew
        simp [unknown, Ne.symm same]
      · simp [isNew]
  · intro asked other leads
    by_cases isNew : asked = memory.next
    · simp only [isNew, Function.update_self, Option.some.injEq] at leads
      rw [← leads]
      exact inside
    · simp only [Function.update_of_ne isNew] at leads
      exact Nat.lt_of_lt_of_le (follows.inside asked other leads) longer
  · intro asked later
    have isOld : asked ≠ memory.next := Nat.ne_of_gt later
    simp only [Function.update_of_ne isOld]
    exact follows.fresh asked (Nat.le_of_succ_le later)

/-- **A new block** has one reference. -/
theorem Exact.make (exact_ : Exact memory) (content : Content) :
    Exact (memory.make content).2 := by
  obtain ⟨pool, follows⟩ := exact_
  have unowned : pool.owners memory.made.length = none :=
    (follows.unmade _).mpr (Nat.le_refl _)
  have made : pool.make memory.made.length memory.next =
      some ⟨Function.update pool.owners memory.made.length (some [memory.next])⟩ := by
    unfold Pool.make
    rw [unowned]
  refine follows.refer (follows.accounts.make made) ?_ ?_ ?_ List.nodup_nil ?_
  · intro other different
    rw [List.length_append, List.length_singleton]
    exact ⟨fun le => Nat.lt_of_le_of_ne le (Ne.symm different), Nat.le_of_succ_le⟩
  · simp
  · simp
  · intro asked
    refine iff_of_false List.not_mem_nil ?_
    intro leads
    exact absurd (follows.inside asked _ leads) (Nat.lt_irrefl _)

/-- **A copy** is one reference more. -/
theorem Exact.copy (exact_ : Exact memory) (leads : memory.target reference = some block) :
    memory.copy reference = some (memory.next, memory.gain block) ∧
      Exact (memory.gain block) := by
  constructor
  · unfold Memory.copy
    rw [exact_.follow leads, Option.map_some]
  · obtain ⟨pool, follows⟩ := exact_
    obtain ⟨references, owned, member⟩ := follows.owners leads
    obtain ⟨distinct, length, owner_iff⟩ := follows.counted block references owned
    have joined : pool.join block memory.next =
        some ⟨Function.update pool.owners block (some (memory.next :: references))⟩ := by
      unfold Pool.join
      rw [owned]
      cases references with
      | nil => cases member
      | cons first rest => rfl
    unfold Memory.gain
    rw [← length]
    exact follows.refer (follows.accounts.join joined) (fun _ _ => Iff.rfl) (Nat.le_refl _)
      (follows.inside reference block leads) distinct owner_iff

/-- **The end of a reference**: its block has one less, and is freed with the last. -/
theorem Exact.destroy (exact_ : Exact memory) (leads : memory.target reference = some block) :
    memory.destroy reference = some (memory.lose block reference) ∧
      Exact (memory.lose block reference) := by
  constructor
  · unfold Memory.destroy
    rw [exact_.follow leads, Option.map_some]
  · unfold Memory.lose
    obtain ⟨pool, follows⟩ := exact_
    obtain ⟨references, owned, member⟩ := follows.owners leads
    obtain ⟨distinct, length, owner_iff⟩ := follows.counted block references owned
    have left : pool.leave block reference =
        some (⟨Function.update pool.owners block (some (references.erase reference))⟩,
          (references.erase reference).isEmpty) := by
      unfold Pool.leave
      simp [owned, member]
    have fewer : (references.erase reference).length = memory.count block - 1 := by
      rw [List.length_erase_of_mem member, length]
    have last : (references.erase reference).isEmpty = true ↔ memory.count block = 1 := by
      have positive : 0 < memory.count block := length ▸ List.length_pos_of_mem member
      rw [List.isEmpty_iff, ← List.length_eq_zero_iff, fewer]
      omega
    have accounts := follows.accounts.leave left
    simp only [last] at accounts
    refine ⟨_, accounts, ?_, ?_, ?_, ?_⟩
    · intro other
      by_cases same : other = block
      · subst same
        simp [follows.inside reference other leads]
      · simp [same, follows.unmade other]
    · intro other others ownedBy
      by_cases same : other = block
      · subst same
        simp only [Function.update_self, Option.some.injEq] at ownedBy
        subst ownedBy
        refine ⟨distinct.erase reference, by simp [fewer], ?_⟩
        intro asked
        rw [distinct.mem_erase_iff, owner_iff asked]
        by_cases itself : asked = reference
        · simp [itself]
        · simp [itself]
      · simp only [Function.update_of_ne same] at ownedBy
        obtain ⟨others_distinct, others_length, others_iff⟩ := follows.counted other others ownedBy
        refine ⟨others_distinct, by simp [same, others_length], ?_⟩
        intro asked
        rw [others_iff asked]
        by_cases itself : asked = reference
        · subst itself
          simp [leads, Ne.symm same]
        · simp [itself]
    · intro asked other leadsTo
      by_cases itself : asked = reference
      · simp [itself] at leadsTo
      · simp only [Function.update_of_ne itself] at leadsTo
        exact follows.inside asked other leadsTo
    · intro asked later
      by_cases itself : asked = reference
      · simp [itself]
      · simp only [Function.update_of_ne itself]
        exact follows.fresh asked later

end Counted
