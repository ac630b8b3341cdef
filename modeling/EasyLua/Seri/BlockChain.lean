import EasyLua.Foundation.LinkedChain
import EasyLua.Foundation.Parser
import EasyLua.Seri.WriteBlock
import Mathlib.Algebra.BigOperators.Group.List.Defs
import Mathlib.Algebra.Group.Action.Defs

/-!
# The write blocks in memory

The chain of write blocks with its pointers: `wb_init`, `wb_push` and the copy loop of
`seri` of `lua-seri.cpp` on a memory of blocks. A null pointer that is followed, a copy
beyond a buffer and an `int` that overflows end a run. No run of pushes ends so, and the
memory always represents the list of buffers in which pushing appends. Allocation is
assumed to succeed.
-/

namespace EasyLua.Seri.BlockChain

/-- A block is named by its position in the order of allocation. -/
abbrev Address := Nat

/-- `struct block`. A cell of the buffer is empty until something is copied to it. -/
structure Block where
  next : Option Address
  buffer : List (Option UInt8)
  size : buffer.length = BLOCK_SIZE

abbrev Memory := List Block

/-- What must not happen. -/
inductive Fault
  | nullPointer
  | outOfBounds
  | overflow
  | assertion
  deriving DecidableEq

abbrev Run := EStateM Fault Memory

/-- `struct write_block`. -/
structure WriteBlock where
  head : Option Address
  current : Option Address
  len : Int
  ptr : Int

/-! ## The operations -/

/-- The block behind a pointer. -/
def load (p : Option Address) : Run Block := fun memory =>
  match p.bind fun address => memory[address]? with
  | some block => .ok block memory
  | none => .error .nullPointer memory

/-- Overwrite the block behind a pointer. -/
def store (p : Option Address) (block : Block) : Run Unit := fun memory =>
  match p with
  | some address => .ok () (memory.set address block)
  | none => .error .nullPointer memory

/-- `blk_alloc`. -/
def blkAlloc : Run Address := fun memory =>
  let block : Block := {
    next := none
    buffer := .replicate BLOCK_SIZE none
    size := List.length_replicate }
  .ok memory.length (memory ++ [block])

/-- Bytes within a buffer. -/
def Block.write (block : Block) (offset : Nat) (data : Bytes)
    (inside : offset + data.length ≤ BLOCK_SIZE) : Block where
  next := block.next
  buffer := block.buffer.take offset ++ data.map some ++ block.buffer.drop (offset + data.length)
  size := by
    have size := block.size
    simp only [List.length_append, List.length_take, List.length_map, List.length_drop]
    omega

/-- `memcpy(p->buffer + offset, data, sz)`. -/
def memcpy (p : Option Address) (offset : Int) (data : Bytes) (sz : Int) : Run Unit := do
  let block ← load p
  if inside : 0 ≤ offset ∧ 0 ≤ sz ∧ sz ≤ data.length ∧ offset + sz ≤ BLOCK_SIZE then
    store p (block.write offset.toNat (data.take sz.toNat) (by rw [List.length_take]; omega))
  else throw .outOfBounds

/-- The sum of two `int`s. -/
def add (x y : Int) : Run Int :=
  if -2 ^ 31 ≤ x + y ∧ x + y < 2 ^ 31 then return x + y else throw .overflow

/-- `current->next = blk_alloc()`. -/
def link (current : Option Address) : Run Address := do
  let fresh ← blkAlloc
  let block ← load current
  store current { block with next := some fresh }
  return fresh

/-- `wb_push` behind its first `if`; the jump to `_again` is the call at the end. What
`buffer` points to is the data, and `sz` is its length. -/
def place (b : WriteBlock) (data : Bytes) : Run WriteBlock :=
  if b.ptr ≤ (BLOCK_SIZE : Int) - data.length then do
    memcpy b.current b.ptr data data.length
    let ptr ← add b.ptr data.length
    let len ← add b.len data.length
    return { b with ptr := ptr, len := len }
  else do
    let copy := BLOCK_SIZE - b.ptr
    memcpy b.current b.ptr data copy
    let len ← add b.len copy
    let fresh ← link b.current
    place { b with current := some fresh, ptr := 0, len := len } (data.drop copy.toNat)
termination_by 2 * data.length + if b.ptr = 0 then 0 else 1
decreasing_by
  rw [List.length_drop]
  simp only [BLOCK_SIZE, ↓reduceIte] at *
  split <;> omega

/-- `wb_push`. -/
def wbPush (b : WriteBlock) (data : Bytes) : Run WriteBlock :=
  if b.ptr = BLOCK_SIZE then do
    let fresh ← link b.current
    place { b with current := some fresh, ptr := 0 } data
  else place b data

/-- `wb_init`. -/
def wbInit (p : Option Address) : Run WriteBlock := do
  let block ← load p
  if block.next = none then return { head := p, current := p, len := 0, ptr := 0 }
  else throw .assertion

/-- The copy loop of `seri`: the cells in the order in which they are copied. -/
def seri (b : Option Address) (len : Int) : Run (List (Option UInt8)) :=
  if 0 < len then
    if BLOCK_SIZE ≤ len then do
      let block ← load b
      let rest ← seri block.next (len - BLOCK_SIZE)
      return block.buffer ++ rest
    else do
      let block ← load b
      return block.buffer.take len.toNat
  else return []
termination_by len.toNat
decreasing_by
  simp only [BLOCK_SIZE] at *
  omega

/-! ## What a memory represents -/

/-- The link of the block at an address. -/
def next (memory : Memory) (address : Address) : Option Address :=
  memory[address]?.bind Block.next

/-- The buffer at an address starts with these bytes. -/
def Contains (memory : Memory) (address : Address) (bytes : Bytes) : Prop :=
  ∃ block, memory[address]? = some block ∧ block.buffer.take bytes.length = bytes.map some

/-- The blocks from `head` on are the buffers of the list model, in their order, and the
last one is the current one. -/
structure Represents (memory : Memory) (b : WriteBlock) (w : Seri.WriteBlock)
    (earlier : List Address) (last : Address) : Prop where
  chain : Linked.Chain (next memory) b.head (earlier ++ [last])
  current : b.current = some last
  previous : List.Forall₂ (Contains memory) earlier w.previous
  contents : Contains memory last w.current
  ptr : b.ptr = w.ptr
  len : b.len = w.len

variable {memory memory' : Memory} {b : WriteBlock} {w : Seri.WriteBlock}
  {earlier : List Address} {last : Address} {bytes data : Bytes}

theorem Contains.lt {address : Address} (contains : Contains memory address bytes) :
    address < memory.length := by
  obtain ⟨block, found, _⟩ := contains
  exact (List.getElem?_eq_some_iff.mp found).1

/-- A block that is not written keeps its bytes. -/
theorem Contains.congr {address : Address} (contains : Contains memory address bytes)
    (same : memory'[address]? = memory[address]?) : Contains memory' address bytes := by
  obtain ⟨block, found, prefix_⟩ := contains
  exact ⟨block, same.trans found, prefix_⟩

section Buffers

variable {addresses : List Address} {buffers : List Bytes}

theorem forall₂_contains_congr (all : List.Forall₂ (Contains memory) addresses buffers)
    (same : ∀ address ∈ addresses, memory'[address]? = memory[address]?) :
    List.Forall₂ (Contains memory') addresses buffers := by
  induction all with
  | nil => exact .nil
  | @cons address buffer addresses buffers contains _ ih =>
      refine .cons (contains.congr (same address List.mem_cons_self)) ?_
      exact ih fun other member => same other (List.mem_cons_of_mem address member)

theorem forall₂_contains_lt (all : List.Forall₂ (Contains memory) addresses buffers)
    {address : Address} (member : address ∈ addresses) : address < memory.length := by
  induction all with
  | nil => exact absurd member List.not_mem_nil
  | cons contains _ ih =>
      rcases List.mem_cons.mp member with rfl | later
      · exact contains.lt
      · exact ih later

end Buffers

theorem load_of_getElem? {block : Block} (found : memory[last]? = some block) :
    load (some last) memory = .ok block memory := by
  unfold load
  rw [Option.bind_some, found]

/-- Where the buffer is written up to its start, the copied bytes follow what is there. -/
theorem Block.take_write {block : Block} (inside : bytes.length + data.length ≤ BLOCK_SIZE)
    (written : block.buffer.take bytes.length = bytes.map some) :
    (block.write bytes.length data inside).buffer.take (bytes ++ data).length =
      (bytes ++ data).map some := by
  have length : (bytes ++ data).length = (bytes.map some ++ data.map some).length := by
    simp only [List.length_append, List.length_map]
  change (block.buffer.take bytes.length ++ data.map some ++
    block.buffer.drop (bytes.length + data.length)).take (bytes ++ data).length = _
  rw [written, length, List.take_left, List.map_append]

/-- `memcpy` to the current buffer appends to what is written of it. -/
theorem Represents.memcpy (represents : Represents memory b w earlier last)
    (written : w.current.length = w.ptr) {sz : Int} (nonneg : 0 ≤ sz) (enough : sz ≤ data.length)
    (fits : w.ptr + sz ≤ BLOCK_SIZE) :
    ∃ memory', BlockChain.memcpy b.current b.ptr data sz memory = .ok () memory' ∧
      Represents memory' b { w with current := w.memcpy (data.take sz.toNat) } earlier last := by
  obtain ⟨block, found, prefix_⟩ := represents.contents
  have bound := represents.contents.lt
  have length : (data.take sz.toNat).length = sz.toNat := by
    rw [List.length_take]
    omega
  have room : w.current.length + (data.take sz.toNat).length ≤ BLOCK_SIZE := by omega
  have inside : 0 ≤ b.ptr ∧ 0 ≤ sz ∧ sz ≤ data.length ∧ b.ptr + sz ≤ BLOCK_SIZE := by
    rw [represents.ptr]
    omega
  have offset : b.ptr.toNat = w.current.length := by
    rw [represents.ptr, written, Int.toNat_natCast]
  have loaded : load b.current memory = .ok block memory := by
    rw [represents.current]
    exact load_of_getElem? found
  refine ⟨memory.set last (block.write w.current.length (data.take sz.toNat) room), ?_, ?_⟩
  · unfold BlockChain.memcpy
    rw [bind_program_of_ok loaded, dif_pos inside, represents.current]
    simp only [offset]
    rfl
  have links : next (memory.set last (block.write w.current.length (data.take sz.toNat) room)) =
      next memory := by
    funext address
    unfold next
    by_cases same : last = address
    · subst same
      rw [List.getElem?_set_self bound, found]
      rfl
    · rw [List.getElem?_set_ne same]
  exact {
    chain := by rw [links]; exact represents.chain
    current := represents.current
    previous := forall₂_contains_congr represents.previous fun _ member =>
      List.getElem?_set_ne (represents.chain.ne_last member).symm
    contents := by
      rw [WriteBlock.memcpy_of_ptr written]
      exact ⟨_, List.getElem?_set_self bound, Block.take_write room prefix_⟩
    ptr := represents.ptr
    len := represents.len }

/-- The list model at the label `_again`, with its new buffer. -/
def fresh (w : Seri.WriteBlock) : Seri.WriteBlock :=
  { w with previous := w.previous ++ [w.current], current := [], ptr := 0 }

/-- A new block is linked behind the current one. -/
theorem Represents.link (represents : Represents memory b w earlier last) :
    ∃ memory', BlockChain.link b.current memory = .ok memory.length memory' ∧
      Represents memory' { b with current := some memory.length, ptr := 0 } (fresh w)
        (earlier ++ [last]) memory.length := by
  obtain ⟨block, found, prefix_⟩ := represents.contents
  have bound := represents.contents.lt
  obtain ⟨new, allocated, end_⟩ : ∃ new : Block,
      blkAlloc memory = .ok memory.length (memory ++ [new]) ∧ new.next = none :=
    ⟨_, rfl, rfl⟩
  have old : (memory ++ [new])[last]? = some block := by
    rw [List.getElem?_append_left bound, found]
  have linked : last < (memory ++ [new]).length := by
    rw [List.length_append]
    exact Nat.lt_add_right _ bound
  obtain ⟨after, set⟩ :
      ∃ after, after = (memory ++ [new]).set last { block with next := some memory.length } :=
    ⟨_, rfl⟩
  have atLast : after[last]? = some { block with next := some memory.length } := by
    rw [set, List.getElem?_set_self linked]
  have elsewhere : ∀ address ∈ earlier, after[address]? = memory[address]? := by
    intro address member
    rw [set, List.getElem?_set_ne (represents.chain.ne_last member).symm,
      List.getElem?_append_left (forall₂_contains_lt represents.previous member)]
  have atFresh : after[memory.length]? = some new := by
    rw [set, List.getElem?_set_ne bound.ne, List.getElem?_concat_length]
  have kept := forall₂_contains_congr represents.previous elsewhere
  refine ⟨after, ?_, ?_⟩
  · unfold BlockChain.link
    rw [bind_program_of_ok allocated, represents.current,
      bind_program_of_ok (load_of_getElem? old), set]
    rfl
  exact {
    chain := by
      refine represents.chain.push (fun address member => ?_) ?_ ?_
      · unfold next
        rw [elsewhere address member]
      · unfold next
        rw [atLast]
        rfl
      · unfold next
        rw [atFresh, Option.bind_some, end_]
    current := rfl
    previous := List.rel_append kept (.cons ⟨_, atLast, prefix_⟩ .nil)
    contents := ⟨new, atFresh, rfl⟩
    ptr := rfl
    len := represents.len }

/-! ## Pushing -/

theorem add_of_small {x y : Int} (nonneg : 0 ≤ x + y) (small : x + y < 2 ^ 31) :
    add x y memory = .ok (x + y) memory := by
  unfold add
  rw [if_pos ⟨by omega, small⟩]
  rfl

/-- From `_again` on the list model pushes to its new buffer. -/
theorem again_eq_push (w : Seri.WriteBlock) (data : Bytes) :
    w.again data = (fresh w).push data := by
  have start : ¬ (fresh w).ptr = BLOCK_SIZE := by
    change ¬ (0 : Nat) = 128
    omega
  rw [WriteBlock.again, WriteBlock.push, if_neg start]
  simp only [fresh, Nat.zero_add, Nat.sub_zero]

/-- The data fits in the current buffer. -/
theorem Represents.copy (represents : Represents memory b w earlier last)
    (written : w.current.length = w.ptr) (fits : w.ptr + data.length ≤ BLOCK_SIZE)
    (small : w.len + data.length < 2 ^ 31) :
    ∃ b' memory', place b data memory = .ok b' memory' ∧ b'.head = b.head ∧
      Represents memory' b' (w.copy data) earlier last := by
  have room : b.ptr ≤ (BLOCK_SIZE : Int) - data.length := by
    rw [represents.ptr]
    omega
  have whole : (data.length : Int) ≤ data.length := le_refl _
  obtain ⟨memory', copied, after⟩ :=
    represents.memcpy written (Int.natCast_nonneg _) whole (by omega)
  rw [Int.toNat_natCast, List.take_length] at after
  have ptr : b.ptr + data.length = (w.ptr + data.length : Nat) := by
    rw [represents.ptr, Int.natCast_add]
  have len : b.len + data.length = (w.len + data.length : Nat) := by
    rw [represents.len, Int.natCast_add]
  have shortPtr : b.ptr + data.length < 2 ^ 31 := by
    simp only [BLOCK_SIZE] at fits
    omega
  rw [place, if_pos room, bind_program_of_ok copied,
    bind_program_of_ok (add_of_small (by omega) shortPtr),
    bind_program_of_ok (add_of_small (by omega) (by omega))]
  exact ⟨_, memory', rfl, rfl, after.chain, after.current, after.previous, after.contents, ptr, len⟩

/-- The data fills the current buffer, and the rest of it comes to a new one. -/
theorem Represents.fill (represents : Represents memory b w earlier last)
    (written : w.current.length = w.ptr) (bound : w.ptr ≤ BLOCK_SIZE)
    (large : ¬ w.ptr + data.length ≤ BLOCK_SIZE) (small : w.len + data.length < 2 ^ 31) :
    ∃ b' memory' last',
      place b data memory = place b' (data.drop (BLOCK_SIZE - w.ptr)) memory' ∧
        b'.head = b.head ∧
          Represents memory' b' (fresh (w.fill data)) (earlier ++ [last]) last' := by
  have beyond : ¬ b.ptr ≤ (BLOCK_SIZE : Int) - data.length := by
    rw [represents.ptr]
    omega
  obtain ⟨copy, chunk⟩ : ∃ copy : Int, copy = BLOCK_SIZE - b.ptr := ⟨_, rfl⟩
  have count : copy.toNat = BLOCK_SIZE - w.ptr := by
    rw [chunk, represents.ptr]
    omega
  have nonneg : 0 ≤ copy := by
    rw [chunk, represents.ptr]
    omega
  obtain ⟨middle, copied, filled⟩ :=
    represents.memcpy written nonneg (show copy ≤ data.length by omega) (by omega)
  have len : b.len + copy = (w.len + (data.take (BLOCK_SIZE - w.ptr)).length : Nat) := by
    rw [represents.len, List.length_take]
    omega
  rw [count] at filled
  have advanced : Represents middle { b with len := b.len + copy } (w.fill data) earlier last :=
    ⟨filled.chain, filled.current, filled.previous, filled.contents, filled.ptr, len⟩
  obtain ⟨memory', linked, after⟩ := advanced.link
  refine ⟨{ b with current := some middle.length, ptr := 0, len := b.len + copy }, memory',
    middle.length, ?_, rfl, after⟩
  have sum := represents.len
  rw [place, if_neg beyond]
  simp only [← chunk]
  rw [bind_program_of_ok copied, bind_program_of_ok (add_of_small (by omega) (by omega)),
    bind_program_of_ok linked, count]

/-- `wb_push` behind its first `if`, by induction on the data that is left. -/
theorem Represents.place (represents : Represents memory b w earlier last)
    (written : w.current.length = w.ptr) (room : w.ptr < BLOCK_SIZE)
    (small : w.len + data.length < 2 ^ 31) :
    ∃ b' memory' earlier' last', BlockChain.place b data memory = .ok b' memory' ∧
      b'.head = b.head ∧ Represents memory' b' (w.push data) earlier' last' := by
  induction length : data.length using Nat.strong_induction_on
    generalizing memory b w earlier last data with
  | _ n ih =>
      unfold WriteBlock.push
      rw [if_neg room.ne]
      by_cases fits : w.ptr + data.length ≤ BLOCK_SIZE
      · rw [if_pos fits]
        obtain ⟨b', memory', ran, head, after⟩ := represents.copy written fits small
        exact ⟨b', memory', earlier, last, ran, head, after⟩
      · rw [if_neg fits, again_eq_push]
        obtain ⟨b', middle, last', ran, head, after⟩ :=
          represents.fill written room.le fits small
        have less : (data.drop (BLOCK_SIZE - w.ptr)).length < n := by
          rw [List.length_drop]
          omega
        rw [ran, ← head]
        refine ih _ less after rfl (show 0 < BLOCK_SIZE by decide) ?_ rfl
        simp only [fresh, WriteBlock.fill, List.length_take, List.length_drop]
        omega

/-- **`wb_push` ends and pushes in the list model.** -/
theorem Represents.push (represents : Represents memory b w earlier last) (holds : w.Holds bytes)
    (small : bytes.length + data.length < 2 ^ 31) :
    ∃ b' memory' earlier' last', wbPush b data memory = .ok b' memory' ∧ b'.head = b.head ∧
      Represents memory' b' (w.push data) earlier' last' := by
  rw [← holds.len] at small
  have bound := holds.ptr_le
  unfold wbPush
  by_cases full : w.ptr = BLOCK_SIZE
  · have atEnd : b.ptr = BLOCK_SIZE := by rw [represents.ptr, full]
    have again : w.push data = (fresh w).push data := by
      rw [← again_eq_push, WriteBlock.push, if_pos full]
    obtain ⟨middle, linked, after⟩ := represents.link
    rw [if_pos atEnd, bind_program_of_ok linked, again]
    exact after.place rfl (show 0 < BLOCK_SIZE by decide) small
  · have inside : ¬ b.ptr = BLOCK_SIZE := by
      rw [represents.ptr]
      omega
    rw [if_neg inside]
    exact represents.place holds.ptr (by omega) small

/-- A run of pushes: none of them faults, and the data is appended in order. -/
theorem Represents.pushes (represents : Represents memory b w earlier last)
    (holds : w.Holds bytes) (pushes : List Bytes)
    (small : bytes.length + pushes.flatten.length < 2 ^ 31) :
    ∃ b' memory' w' earlier' last', pushes.foldlM wbPush b memory = .ok b' memory' ∧
      b'.head = b.head ∧ Represents memory' b' w' earlier' last' ∧
        w'.Holds (bytes ++ pushes.flatten) := by
  induction pushes generalizing memory b w earlier last bytes with
  | nil =>
      rw [List.flatten_nil, List.append_nil]
      exact ⟨b, memory, w, earlier, last, rfl, rfl, represents, holds⟩
  | cons data pushes ih =>
      rw [List.flatten_cons, List.length_append] at small
      obtain ⟨b', middle, earlier', last', ran, head, after⟩ :=
        represents.push holds (show bytes.length + data.length < 2 ^ 31 by omega)
      rw [List.foldlM_cons, bind_program_of_ok ran, List.flatten_cons, ← List.append_assoc,
        ← head]
      apply ih after (holds.push data)
      rw [List.length_append]
      omega

/-- `wb_init` with one block that has no next one. -/
theorem represents_init {temp : Address} {block : Block} (found : memory[temp]? = some block)
    (end_ : block.next = none) :
    ∃ b, wbInit (some temp) memory = .ok b memory ∧ b.head = some temp ∧
      Represents memory b .init [] temp := by
  refine ⟨{ head := some temp, current := some temp, len := 0, ptr := 0 }, ?_, rfl, ?_⟩
  · unfold wbInit
    rw [bind_program_of_ok (load_of_getElem? found), if_pos end_]
    rfl
  · have link : next memory temp = none := by
      unfold next
      rw [found, Option.bind_some, end_]
    refine ⟨.node ?_, rfl, .nil, ⟨block, found, rfl⟩, rfl, rfl⟩
    rw [link]
    exact .null

/-! ## Copying -/

theorem seri_of_nonpos {p : Option Address} {len : Int} (done : len ≤ 0) :
    seri p len memory = .ok [] memory := by
  rw [seri, if_neg (Int.not_lt.mpr done)]
  rfl

/-- A whole buffer is copied from a full block. -/
theorem seri_full {address : Address} {len : Int} (contains : Contains memory address bytes)
    (full : bytes.length = BLOCK_SIZE) (enough : BLOCK_SIZE ≤ len) {rest : List (Option UInt8)}
    (copied : seri (next memory address) (len - BLOCK_SIZE) memory = .ok rest memory) :
    seri (some address) len memory = .ok (bytes.map some ++ rest) memory := by
  obtain ⟨block, found, written⟩ := contains
  have buffer : block.buffer = bytes.map some := by
    rw [← written, full, List.take_of_length_le block.size.le]
  have positive : 0 < len := by
    simp only [BLOCK_SIZE] at enough
    omega
  have follow : next memory address = block.next := by
    unfold next
    rw [found, Option.bind_some]
  rw [follow] at copied
  rw [seri, if_pos positive, if_pos enough, bind_program_of_ok (load_of_getElem? found),
    bind_program_of_ok copied, buffer]
  rfl

/-- The last block is copied as far as it is written. A full one is followed by no read of
its null pointer. -/
theorem seri_last (contains : Contains memory last bytes) (bound : bytes.length ≤ BLOCK_SIZE) :
    seri (some last) bytes.length memory = .ok (bytes.map some) memory := by
  by_cases full : bytes.length = BLOCK_SIZE
  · have copied : seri (next memory last) (bytes.length - BLOCK_SIZE) memory = .ok [] memory :=
      seri_of_nonpos (by omega)
    rw [seri_full contains full (by omega) copied, List.append_nil]
  by_cases empty : bytes = []
  · subst empty
    exact seri_of_nonpos (le_refl _)
  obtain ⟨block, found, written⟩ := contains
  have positive := List.length_pos_iff.mpr empty
  have short : ¬ (BLOCK_SIZE : Int) ≤ bytes.length := by omega
  rw [seri, if_pos (by omega), if_neg short, bind_program_of_ok (load_of_getElem? found),
    Int.toNat_natCast, written]
  rfl

/-- The copy loop of `seri` on a chain whose buffers are full but for the last one. -/
theorem seri_chain {p : Option Address} {addresses : List Address} {buffers : List Bytes}
    (chain : Linked.Chain (next memory) p (addresses ++ [last]))
    (all : List.Forall₂ (Contains memory) addresses buffers)
    (full : ∀ buffer ∈ buffers, buffer.length = BLOCK_SIZE)
    (contains : Contains memory last bytes) (bound : bytes.length ≤ BLOCK_SIZE) :
    seri p (buffers.flatten ++ bytes).length memory =
      .ok ((buffers.flatten ++ bytes).map some) memory := by
  induction all generalizing p with
  | nil =>
      cases chain with
      | node _ => exact seri_last contains bound
  | @cons address buffer addresses buffers first _ ih =>
      cases chain with
      | node rest =>
          have size : buffer.length = BLOCK_SIZE := full buffer List.mem_cons_self
          have copied := ih rest fun other member => full other (List.mem_cons_of_mem buffer member)
          have length : (((buffer :: buffers).flatten ++ bytes).length : Int) =
              BLOCK_SIZE + (buffers.flatten ++ bytes).length := by
            rw [List.flatten_cons, List.append_assoc, List.length_append, size, Int.natCast_add]
          have left : (((buffer :: buffers).flatten ++ bytes).length : Int) - BLOCK_SIZE =
              (buffers.flatten ++ bytes).length := by omega
          rw [← left] at copied
          rw [seri_full first size (by omega) copied, List.flatten_cons, List.append_assoc,
            ← List.map_append]

/-- What `seri` copies is what the list model holds. -/
theorem Represents.seri (represents : Represents memory b w earlier last) (holds : w.Holds bytes) :
    BlockChain.seri b.head b.len memory = .ok (bytes.map some) memory := by
  have bound : w.current.length ≤ BLOCK_SIZE := by
    rw [holds.ptr]
    exact holds.ptr_le
  have copied :=
    seri_chain represents.chain represents.previous holds.full represents.contents bound
  rwa [holds.contents, ← holds.len, ← represents.len] at copied

/-- The counters say how long the chain is. -/
theorem Represents.len_eq (represents : Represents memory b w earlier last)
    (holds : w.Holds bytes) :
    b.len = BLOCK_SIZE * ((earlier ++ [last]).length - 1) + b.ptr := by
  have lengths : ∀ length ∈ w.previous.map List.length, length = BLOCK_SIZE := by
    intro length member
    obtain ⟨buffer, present, rfl⟩ := List.mem_map.mp member
    exact holds.full buffer present
  have full : w.previous.flatten.length = w.previous.length * BLOCK_SIZE := by
    rw [List.length_flatten, List.sum_eq_card_nsmul _ _ lengths, List.length_map, smul_eq_mul]
  have total : w.len = w.previous.flatten.length + w.current.length := by
    rw [holds.len, ← holds.contents, List.length_append]
  have count := represents.previous.length_eq
  rw [represents.len, represents.ptr, total, full, holds.ptr, List.length_append,
    List.length_singleton, count]
  simp only [BLOCK_SIZE]
  omega

/-- **The chain of blocks is a faithful byte buffer.** Pushes of less than `2 ^ 31` bytes in
all never fault. After them `ptr` is within the current block, the counters give the number of
blocks from `head` to the null pointer, and `seri` copies the concatenation of what was
pushed. -/
theorem pushes_seri {memory : Memory} {temp : Address} {block : Block}
    (found : memory[temp]? = some block) (end_ : block.next = none) (pushes : List Bytes)
    (total : pushes.flatten.length < 2 ^ 31) :
    ∃ (b : WriteBlock) (memory' : Memory) (blocks : List Address),
      (do
        let b ← wbInit (some temp)
        pushes.foldlM wbPush b : Run WriteBlock) memory = .ok b memory' ∧
      0 ≤ b.ptr ∧ b.ptr ≤ BLOCK_SIZE ∧ b.head = some temp ∧
      Linked.Chain (next memory') b.head blocks ∧ b.current = blocks.getLast? ∧
      b.len = BLOCK_SIZE * (blocks.length - 1) + b.ptr ∧
      seri b.head b.len memory' = .ok (pushes.flatten.map some) memory' := by
  obtain ⟨start, initialized, head, represents⟩ := represents_init found end_
  obtain ⟨b, memory', w, earlier, last, ran, kept, after, holds⟩ :=
    represents.pushes WriteBlock.init_holds pushes (by rwa [List.length_nil, Nat.zero_add])
  have ptr := after.ptr
  have bound := holds.ptr_le
  refine ⟨b, memory', earlier ++ [last], ?_, by omega, by omega, ?_, after.chain, ?_,
    after.len_eq holds, after.seri holds⟩
  · rw [bind_program_of_ok initialized, ran]
  · rw [kept, head]
  · rw [after.current, List.getLast?_concat]

/-- Two bytes and then three hundred: the second push spans three blocks. -/
theorem pushes_seri_spanning :
    ∃ (block : Block) (b : WriteBlock) (memory' : Memory) (blocks : List Address),
      (do
        let b ← wbInit (some 0)
        [[1, 2], List.replicate 300 3].foldlM wbPush b : Run WriteBlock) [block] = .ok b memory' ∧
      0 ≤ b.ptr ∧ b.ptr ≤ BLOCK_SIZE ∧ b.head = some 0 ∧
      Linked.Chain (next memory') b.head blocks ∧ b.current = blocks.getLast? ∧
      b.len = BLOCK_SIZE * (blocks.length - 1) + b.ptr ∧
      seri b.head b.len memory' =
        .ok ([[1, 2], List.replicate 300 3].flatten.map some) memory' := by
  have total : ([[1, 2], List.replicate 300 3] : List Bytes).flatten.length < 2 ^ 31 := by
    rw [List.flatten_cons, List.flatten_cons, List.length_append, List.length_append,
      List.length_replicate]
    decide
  exact ⟨{ next := none, buffer := .replicate BLOCK_SIZE none, size := List.length_replicate },
    pushes_seri rfl rfl [[1, 2], List.replicate 300 3] total⟩

end EasyLua.Seri.BlockChain
