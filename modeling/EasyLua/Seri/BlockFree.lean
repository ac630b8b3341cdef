import EasyLua.Seri.BlockChain
import Mathlib.Data.List.Perm.Subperm

/-!
# Freeing the write blocks

`wb_free` on a heap that knows which blocks have been given back. `luaseri_pack` calls it after
`seri`, and `pack_one` before each of its own errors, so whatever has been pushed by then, the
blocks of `blk_alloc` are freed and the block on the C stack is not.
-/

namespace EasyLua.Seri.BlockChain

/-- The blocks, and the addresses that `free` has been called with, the latest first. -/
structure Heap where
  memory : Memory
  freed : List Address

/-- What must not happen when blocks are freed. -/
inductive HeapFault
  | nullPointer
  | useAfterFree
  | doubleFree
  /-- `free` of an address that `malloc` has not returned. -/
  | notAllocated
  /-- The loop has gone around more often than there are blocks. -/
  | endless
  deriving DecidableEq

abbrev HeapRun := EStateM HeapFault Heap

/-- The block behind a pointer, which has not been freed. -/
def loadLive (p : Option Address) : HeapRun Block := fun heap =>
  match p with
  | none => .error .nullPointer heap
  | some address =>
      if address ∈ heap.freed then .error .useAfterFree heap
      else
        match heap.memory[address]? with
        | some block => .ok block heap
        | none => .error .nullPointer heap

/-- `free`, where `temp` is the address of the block on the C stack. -/
def free (temp address : Address) : HeapRun Unit := fun heap =>
  if address ∈ heap.freed then .error .doubleFree heap
  else if address = temp ∨ heap.memory.length ≤ address then .error .notAllocated heap
  else .ok () { heap with freed := address :: heap.freed }

/-- The loop of `wb_free`, for at most so many rounds. -/
def freeLoop (temp : Address) : Nat → Option Address → HeapRun Unit
  | _, none => return ()
  | 0, some _ => throw .endless
  | rounds + 1, some blk => do
      let block ← loadLive (some blk)
      free temp blk
      freeLoop temp rounds block.next

/-- The number of blocks, which bounds the rounds of the loop. -/
def blocks : HeapRun Nat := fun heap => .ok heap.memory.length heap

/-- `wb_free`. -/
def wbFree (temp : Address) (wb : WriteBlock) : HeapRun WriteBlock := do
  let blk ← loadLive wb.head
  let rounds ← blocks
  freeLoop temp rounds blk.next
  return { head := none, current := none, len := 0, ptr := 0 }

/-! ## How many blocks there are -/

/-- The counters say how many blocks there are, the one on the C stack included. -/
def Counted (memory : Memory) (b : WriteBlock) : Prop :=
  b.len = BLOCK_SIZE * ((memory.length : Int) - 1) + b.ptr

section Counting

variable {memory memory' : Memory} {b b' : WriteBlock} {data : Bytes} {p : Option Address}

theorem load_memory {block : Block} (ran : load p memory = .ok block memory') :
    memory' = memory := by
  unfold load at ran
  split at ran
  · cases ran
    rfl
  · cases ran

theorem length_store {block : Block} (ran : store p block memory = .ok () memory') :
    memory'.length = memory.length := by
  unfold store at ran
  cases p with
  | none => cases ran
  | some address =>
      cases ran
      exact List.length_set

/-- Copying makes no block. -/
theorem length_memcpy {offset sz : Int} (ran : memcpy p offset data sz memory = .ok () memory') :
    memory'.length = memory.length := by
  unfold memcpy at ran
  obtain ⟨block, middle, loaded, stored⟩ := of_bind_program_ok ran
  obtain rfl := load_memory loaded
  split at stored
  · exact length_store stored
  · cases stored

/-- Linking makes one block. -/
theorem length_link {fresh : Address} (ran : link p memory = .ok fresh memory') :
    memory'.length = memory.length + 1 := by
  unfold link at ran
  obtain ⟨new, grown, allocated, loading⟩ := of_bind_program_ok ran
  obtain ⟨block, middle, loaded, storing⟩ := of_bind_program_ok loading
  obtain ⟨_, after, stored, returned⟩ := of_bind_program_ok storing
  have more : grown.length = memory.length + 1 := by
    cases allocated
    simp
  obtain rfl := load_memory loaded
  cases returned
  rw [length_store stored, more]

theorem add_ok {x y sum : Int} (ran : add x y memory = .ok sum memory') :
    sum = x + y ∧ memory' = memory := by
  unfold add at ran
  split at ran
  · cases ran
    exact ⟨rfl, rfl⟩
  · cases ran

/-- **`wb_push`** keeps count, behind its first `if`. -/
theorem Counted.place (counted : Counted memory b)
    (ran : BlockChain.place b data memory = .ok b' memory') : Counted memory' b' := by
  induction b, data using place.induct generalizing memory with
  | case1 b data fits =>
      rw [BlockChain.place, if_pos fits] at ran
      obtain ⟨_, copied, wrote, advancing⟩ := of_bind_program_ok ran
      obtain ⟨ptr, _, added, counting⟩ := of_bind_program_ok advancing
      obtain ⟨len, _, added', returned⟩ := of_bind_program_ok counting
      have length := length_memcpy wrote
      obtain ⟨rfl, rfl⟩ := add_ok added
      obtain ⟨rfl, rfl⟩ := add_ok added'
      cases returned
      unfold Counted at counted ⊢
      dsimp only
      rw [length]
      omega
  | case2 b data large copy =>
      rename_i ih
      rw [BlockChain.place, if_neg large] at ran
      obtain ⟨_, copied, wrote, adding⟩ := of_bind_program_ok ran
      obtain ⟨len, _, added, linking⟩ := of_bind_program_ok adding
      obtain ⟨fresh, linked, made, placing⟩ := of_bind_program_ok linking
      have length := length_memcpy wrote
      obtain ⟨rfl, rfl⟩ := add_ok added
      have more := length_link made
      refine ih _ fresh ?_ placing
      unfold Counted at counted ⊢
      dsimp only
      rw [more, length]
      simp only [BLOCK_SIZE] at *
      omega

theorem Counted.push (counted : Counted memory b) (ran : wbPush b data memory = .ok b' memory') :
    Counted memory' b' := by
  unfold wbPush at ran
  by_cases full : b.ptr = BLOCK_SIZE
  · rw [if_pos full] at ran
    obtain ⟨fresh, linked, made, rest⟩ := of_bind_program_ok ran
    have more := length_link made
    refine Counted.place ?_ rest
    unfold Counted at counted ⊢
    dsimp only
    rw [more]
    simp only [BLOCK_SIZE] at *
    omega
  · rw [if_neg full] at ran
    exact counted.place ran

theorem Counted.pushes (counted : Counted memory b) {pushes : List Bytes}
    (ran : pushes.foldlM wbPush b memory = .ok b' memory') : Counted memory' b' := by
  induction pushes generalizing memory b with
  | nil =>
      cases ran
      exact counted
  | cons data pushes ih =>
      rw [List.foldlM_cons] at ran
      obtain ⟨middle, between, pushed, rest⟩ := of_bind_program_ok ran
      exact ih (counted.push pushed) rest

end Counting

/-! ## Freeing -/

section Freeing

variable {memory : Memory} {freed : List Address} {temp : Address}

theorem blocks_run (heap : Heap) : blocks heap = .ok heap.memory.length heap := rfl

theorem loadLive_run {address : Address} {block : Block} (live : address ∉ freed)
    (found : memory[address]? = some block) :
    loadLive (some address) ⟨memory, freed⟩ = .ok block ⟨memory, freed⟩ := by
  unfold loadLive
  simp [live, found]

theorem free_run {address : Address} (live : address ∉ freed) (heap : address ≠ temp)
    (allocated : address < memory.length) :
    free temp address ⟨memory, freed⟩ = .ok () ⟨memory, address :: freed⟩ := by
  unfold free
  simp [live, heap, allocated]

/-- Different addresses of blocks are not more than there are blocks. -/
theorem inRange {nodes : List Address} (distinct : nodes.Nodup)
    (allocated : ∀ node ∈ nodes, node < memory.length) :
    List.Subperm nodes (List.range memory.length) :=
  List.subperm_of_subset distinct fun node member => List.mem_range.mpr (allocated node member)

/-- **The loop of `wb_free`** frees the blocks of its chain in their order. -/
theorem freeLoop_run {p : Option Address} {nodes : List Address}
    (chain : Linked.Chain (next memory) p nodes) :
    ∀ (rounds : Nat) (freed : List Address), nodes.length ≤ rounds →
      (∀ node ∈ nodes, node ∉ freed ∧ node ≠ temp ∧ node < memory.length) →
      freeLoop temp rounds p ⟨memory, freed⟩ = .ok () ⟨memory, nodes.reverse ++ freed⟩ := by
  have distinct := chain.nodup
  induction chain with
  | null =>
      intro rounds freed _ _
      cases rounds <;> rfl
  | @node first nodes rest ih =>
      intro rounds freed enough good
      obtain ⟨different, others⟩ := List.nodup_cons.mp distinct
      obtain ⟨live, heap, allocated⟩ := good first List.mem_cons_self
      have found : memory[first]? = some memory[first] := List.getElem?_eq_getElem allocated
      have link : next memory first = memory[first].next := by
        unfold next
        rw [found, Option.bind_some]
      rw [link] at ih
      cases rounds with
      | zero => simp at enough
      | succ rounds =>
          have onward := ih others rounds (first :: freed) (Nat.le_of_succ_le_succ enough) (by
            intro node member
            obtain ⟨nodeLive, nodeHeap, nodeAllocated⟩ := good node (List.mem_cons_of_mem _ member)
            refine ⟨?_, nodeHeap, nodeAllocated⟩
            intro again
            rcases List.mem_cons.mp again with rfl | before
            · exact different member
            · exact nodeLive before)
          unfold freeLoop
          rw [bind_program_of_ok (loadLive_run live found),
            bind_program_of_ok (free_run live heap allocated), onward]
          simp

/-- **`wb_free`** frees all blocks of the chain but the first one, which is on the C stack. -/
theorem wbFree_run {b : WriteBlock} {nodes : List Address}
    (chain : Linked.Chain (next memory) b.head (temp :: nodes))
    (allocated : ∀ node ∈ temp :: nodes, node < memory.length) :
    wbFree temp b ⟨memory, []⟩ =
      .ok { head := none, current := none, len := 0, ptr := 0 } ⟨memory, nodes.reverse⟩ := by
  have distinct := chain.nodup
  obtain ⟨notTemp, others⟩ := List.nodup_cons.mp distinct
  have inside := allocated temp List.mem_cons_self
  have found : memory[temp]? = some memory[temp] := List.getElem?_eq_getElem inside
  cases head : b.head with
  | none =>
      rw [head] at chain
      cases chain
  | some first =>
      rw [head] at chain
      cases chain with
      | node rest =>
          have link : next memory temp = memory[temp].next := by
            unfold next
            rw [found, Option.bind_some]
          rw [link] at rest
          have few : nodes.length ≤ memory.length := by
            have all := (inRange distinct allocated).length_le
            rw [List.length_cons, List.length_range] at all
            omega
          have freedAll := freeLoop_run rest memory.length [] few (by
            intro node member
            refine ⟨List.not_mem_nil, ?_, allocated node (List.mem_cons_of_mem _ member)⟩
            rintro rfl
            exact notTemp member)
          unfold wbFree
          rw [head, bind_program_of_ok (loadLive_run List.not_mem_nil found),
            bind_program_of_ok (blocks_run _), bind_program_of_ok freedAll, List.append_nil]
          rfl

end Freeing

/-- **The serializer frees its blocks exactly once.** After any pushes of less than `2 ^ 31` bytes
in all `wb_free` ends without a fault, and what it has freed are the blocks of `blk_alloc`, each of
them once; the block on the C stack, at 0, is not freed. `seri` before it reads what was pushed. -/
theorem pushes_free {block : Block} (end_ : block.next = none) (pushes : List Bytes)
    (total : pushes.flatten.length < 2 ^ 31) :
    ∃ (b : WriteBlock) (memory' : Memory) (freed : List Address),
      (do
        let b ← wbInit (some 0)
        pushes.foldlM wbPush b : Run WriteBlock) [block] = .ok b memory' ∧
      seri b.head b.len memory' = .ok (pushes.flatten.map some) memory' ∧
      wbFree 0 b ⟨memory', []⟩ =
        .ok { head := none, current := none, len := 0, ptr := 0 } ⟨memory', freed⟩ ∧
      freed.Nodup ∧ ∀ address, address ∈ freed ↔ 1 ≤ address ∧ address < memory'.length := by
  have found : ([block] : Memory)[0]? = some block := rfl
  obtain ⟨start, initialized, head, represents⟩ := represents_init found end_
  obtain ⟨b, memory', w, earlier, last, ran, kept, after, holds⟩ :=
    represents.pushes WriteBlock.init_holds pushes (by rwa [List.length_nil, Nat.zero_add])
  have first : Counted [block] start := by
    unfold Counted
    rw [represents.len, represents.ptr]
    rfl
  have counted := first.pushes ran
  have length := after.len_eq holds
  have chain := after.chain
  have allocated : ∀ node ∈ earlier ++ [last], node < memory'.length := by
    intro node member
    rcases List.mem_append.mp member with before | final
    · exact forall₂_contains_lt after.previous before
    · rw [List.mem_singleton.mp final]
      exact after.contents.lt
  obtain ⟨nodes, split⟩ : ∃ nodes, earlier ++ [last] = 0 :: nodes := by
    rw [kept, head] at chain
    generalize earlier ++ [last] = all at chain
    cases chain with
    | node rest => exact ⟨_, rfl⟩
  rw [split] at chain length allocated
  have count : memory'.length = (0 :: nodes).length := by
    unfold Counted at counted
    rw [List.length_cons] at length ⊢
    simp only [BLOCK_SIZE] at *
    omega
  have everything : List.Perm (0 :: nodes) (List.range memory'.length) :=
    (inRange chain.nodup allocated).perm_of_length_le (by rw [List.length_range, count])
  obtain ⟨notFirst, distinct⟩ := List.nodup_cons.mp chain.nodup
  refine ⟨b, memory', nodes.reverse, ?_, after.seri holds, wbFree_run chain allocated,
    List.nodup_reverse.mpr distinct, ?_⟩
  · rw [bind_program_of_ok initialized, ran]
  · intro address
    have member : address ∈ 0 :: nodes ↔ address < memory'.length := by
      rw [everything.mem_iff, List.mem_range]
    rw [List.mem_reverse, ← member, List.mem_cons]
    constructor
    · intro inside
      refine ⟨Nat.one_le_iff_ne_zero.mpr ?_, Or.inr inside⟩
      rintro rfl
      exact notFirst inside
    · rintro ⟨positive, rfl | inside⟩
      · cases positive
      · exact inside

/-- Two bytes and then three hundred: two blocks are made and freed. -/
theorem pushes_free_spanning :
    ∃ (block : Block) (b : WriteBlock) (memory' : Memory) (freed : List Address),
      (do
        let b ← wbInit (some 0)
        [[1, 2], List.replicate 300 3].foldlM wbPush b : Run WriteBlock) [block] = .ok b memory' ∧
      wbFree 0 b ⟨memory', []⟩ =
        .ok { head := none, current := none, len := 0, ptr := 0 } ⟨memory', freed⟩ ∧
      freed.Nodup := by
  have total : ([[1, 2], List.replicate 300 3] : List Bytes).flatten.length < 2 ^ 31 := by
    rw [List.flatten_cons, List.flatten_cons, List.length_append, List.length_append,
      List.length_replicate]
    decide
  obtain ⟨block, end_⟩ : ∃ block : Block, block.next = none :=
    ⟨{ next := none, buffer := .replicate BLOCK_SIZE none, size := List.length_replicate }, rfl⟩
  obtain ⟨b, memory', freed, ran, _, gone, distinct, _⟩ :=
    pushes_free end_ [[1, 2], List.replicate 300 3] total
  exact ⟨block, b, memory', freed, ran, gone, distinct⟩

end EasyLua.Seri.BlockChain
