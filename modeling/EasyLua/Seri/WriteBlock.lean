import EasyLua.Seri.Value

/-!
# The chain of write blocks

`struct write_block` of `lua-seri.cpp`: bytes are pushed into a chain of buffers of
`BLOCK_SIZE` bytes, and `seri` copies the chain into one buffer at the end. Pushing
appends: the chain always holds exactly the bytes pushed so far.
-/

namespace EasyLua.Seri

def BLOCK_SIZE : Nat := 128

/-- `struct write_block`: the buffers before the current one, from `head` on, the current
buffer as far as it has been written, and the two counters. -/
structure WriteBlock where
  previous : List Bytes
  current : Bytes
  len : Nat
  ptr : Nat

namespace WriteBlock

/-- `wb_init`. -/
def init : WriteBlock where
  previous := []
  current := []
  len := 0
  ptr := 0

/-- `memcpy(b->current->buffer + b->ptr, data, sz)`. -/
def memcpy (b : WriteBlock) (data : Bytes) : Bytes :=
  b.current.take b.ptr ++ data ++ b.current.drop (b.ptr + data.length)

/-- The branch of `wb_push` in which the data fits. -/
def copy (b : WriteBlock) (data : Bytes) : WriteBlock :=
  { b with
    current := b.memcpy data
    ptr := b.ptr + data.length
    len := b.len + data.length }

/-- The branch of `wb_push` that fills the current buffer. -/
def fill (b : WriteBlock) (data : Bytes) : WriteBlock :=
  { b with
    current := b.memcpy (data.take (BLOCK_SIZE - b.ptr))
    len := b.len + (data.take (BLOCK_SIZE - b.ptr)).length }

/-- `wb_push` from its label `_again` on: every round starts with a new buffer. -/
def again (b : WriteBlock) (data : Bytes) : WriteBlock :=
  let fresh := { b with previous := b.previous ++ [b.current], current := [], ptr := 0 }
  if data.length ≤ BLOCK_SIZE then fresh.copy data
  else (fresh.fill data).again (data.drop BLOCK_SIZE)
termination_by data.length
decreasing_by
  rw [List.length_drop]
  simp only [BLOCK_SIZE] at *
  omega

/-- `wb_push`. -/
def push (b : WriteBlock) (data : Bytes) : WriteBlock :=
  if b.ptr = BLOCK_SIZE then b.again data
  else if b.ptr + data.length ≤ BLOCK_SIZE then b.copy data
  else (b.fill data).again (data.drop (BLOCK_SIZE - b.ptr))

/-- The chain of buffers from `head` on. -/
def blocks (b : WriteBlock) : List Bytes := b.previous ++ [b.current]

end WriteBlock

/-- The copy loop of `seri`. -/
def seri : List Bytes → Nat → Bytes
  | [], _ => []
  | block :: next, len =>
      if len = 0 then []
      else if BLOCK_SIZE ≤ len then block.take BLOCK_SIZE ++ seri next (len - BLOCK_SIZE)
      else block.take len

namespace WriteBlock

/-- The chain holds these bytes: all buffers but the current one are full, and the
counters are right. -/
structure Holds (b : WriteBlock) (bytes : Bytes) : Prop where
  full : ∀ block ∈ b.previous, block.length = BLOCK_SIZE
  ptr : b.current.length = b.ptr
  ptr_le : b.ptr ≤ BLOCK_SIZE
  contents : b.previous.flatten ++ b.current = bytes
  len : b.len = bytes.length

theorem init_holds : init.Holds [] where
  full := nofun
  ptr := rfl
  ptr_le := Nat.zero_le _
  contents := rfl
  len := rfl

/-- Behind the written part of the current buffer there is nothing to overwrite. -/
theorem memcpy_of_ptr {b : WriteBlock} (ptr : b.current.length = b.ptr) (data : Bytes) :
    b.memcpy data = b.current ++ data := by
  unfold memcpy
  rw [← ptr, List.take_length, List.drop_eq_nil_of_le (by omega), List.append_nil]

theorem Holds.copy {b : WriteBlock} {bytes data : Bytes} (holds : b.Holds bytes)
    (fits : b.ptr + data.length ≤ BLOCK_SIZE) : (b.copy data).Holds (bytes ++ data) where
  full := holds.full
  ptr := by
    have length := holds.ptr
    simp only [WriteBlock.copy, memcpy_of_ptr holds.ptr, List.length_append]
    omega
  ptr_le := fits
  contents := by
    simp only [WriteBlock.copy, memcpy_of_ptr holds.ptr]
    rw [← List.append_assoc, holds.contents]
  len := by
    simp only [WriteBlock.copy, List.length_append, holds.len]

/-- From `_again` on the current buffer is full, and the data is appended. -/
theorem again_holds (b : WriteBlock) (data bytes : Bytes)
    (full : ∀ block ∈ b.blocks, block.length = BLOCK_SIZE)
    (contents : b.blocks.flatten = bytes) (len : b.len = bytes.length) :
    (b.again data).Holds (bytes ++ data) := by
  induction b, data using WriteBlock.again.induct generalizing bytes with
  | case1 b data fits =>
      rw [WriteBlock.again, if_pos fits]
      have start : Holds { b with previous := b.blocks, current := [], ptr := 0 } bytes :=
        ⟨full, rfl, Nat.zero_le _, by simpa using contents, len⟩
      exact start.copy (by simpa using fits)
  | case2 b data fresh large ih =>
      rw [WriteBlock.again, if_neg large]
      have chunk : (data.take BLOCK_SIZE).length = BLOCK_SIZE := by
        rw [List.length_take]
        omega
      have written : fresh.fill data =
          { fresh with
            current := data.take BLOCK_SIZE
            len := b.len + BLOCK_SIZE } := by
        simp [fill, memcpy, fresh, chunk]
      have rest := ih (bytes ++ data.take BLOCK_SIZE) ?_ ?_ ?_
      · rw [List.append_assoc, List.take_append_drop] at rest
        exact rest
      · intro block member
        rw [written] at member
        rcases List.mem_append.mp member with old | new
        · exact full block old
        · rw [List.mem_singleton.mp new]
          exact chunk
      · rw [written]
        simp only [blocks, List.flatten_append, List.flatten_singleton] at contents ⊢
        simp only [fresh, List.flatten_append, List.flatten_singleton, contents]
      · rw [written, List.length_append, chunk, ← len]

/-- **Pushing appends.** -/
theorem Holds.push {b : WriteBlock} {bytes : Bytes} (holds : b.Holds bytes) (data : Bytes) :
    (b.push data).Holds (bytes ++ data) := by
  unfold WriteBlock.push
  have length := holds.ptr
  have bound := holds.ptr_le
  by_cases atEnd : b.ptr = BLOCK_SIZE
  · rw [if_pos atEnd]
    refine again_holds b data bytes ?_ ?_ holds.len
    · intro block member
      rcases List.mem_append.mp member with old | new
      · exact holds.full block old
      · rw [List.mem_singleton.mp new, length, atEnd]
    · simpa [blocks] using holds.contents
  · rw [if_neg atEnd]
    by_cases fits : b.ptr + data.length ≤ BLOCK_SIZE
    · rw [if_pos fits]
      exact holds.copy fits
    · rw [if_neg fits]
      have chunk : (data.take (BLOCK_SIZE - b.ptr)).length = BLOCK_SIZE - b.ptr := by
        rw [List.length_take]
        omega
      have rest := again_holds (b.fill data) (data.drop (BLOCK_SIZE - b.ptr))
        (bytes ++ data.take (BLOCK_SIZE - b.ptr)) ?_ ?_ ?_
      · rw [List.append_assoc, List.take_append_drop] at rest
        exact rest
      · intro block member
        rcases List.mem_append.mp member with old | new
        · exact holds.full block old
        · rw [List.mem_singleton.mp new]
          simp only [fill, memcpy_of_ptr length, List.length_append, chunk]
          omega
      · simp only [blocks, fill, memcpy_of_ptr length, List.flatten_append,
          List.flatten_singleton]
        rw [← List.append_assoc, holds.contents]
      · simp only [fill, List.length_append, holds.len]

end WriteBlock

/-- `seri` copies a chain whose buffers are full but for the last one. -/
theorem seri_flatten (previous : List Bytes) (current : Bytes)
    (full : ∀ block ∈ previous, block.length = BLOCK_SIZE)
    (bound : current.length ≤ BLOCK_SIZE) :
    seri (previous ++ [current]) (previous.flatten ++ current).length =
      previous.flatten ++ current := by
  induction previous with
  | nil =>
      simp only [List.nil_append, List.flatten_nil, seri]
      by_cases empty : current.length = 0
      · rw [if_pos empty, List.length_eq_zero_iff.mp empty]
      · rw [if_neg empty]
        by_cases whole : BLOCK_SIZE ≤ current.length
        · rw [if_pos whole, List.append_nil, List.take_of_length_le bound]
        · rw [if_neg whole, List.take_length]
  | cons block previous ih =>
      have size : block.length = BLOCK_SIZE := full block List.mem_cons_self
      have rest := ih fun other member => full other (List.mem_cons_of_mem block member)
      have length : ((block :: previous).flatten ++ current).length =
          BLOCK_SIZE + (previous.flatten ++ current).length := by
        simp [size]
      have positive : BLOCK_SIZE + (previous.flatten ++ current).length ≠ 0 := by
        simp only [BLOCK_SIZE]
        omega
      rw [length, List.cons_append, seri, if_neg positive, if_pos (Nat.le_add_right _ _),
        Nat.add_sub_cancel_left, rest, List.take_of_length_le (Nat.le_of_eq size),
        List.flatten_cons, List.append_assoc]

/-- The copied chain is what was pushed. -/
theorem WriteBlock.Holds.seri {b : WriteBlock} {bytes : Bytes} (holds : b.Holds bytes) :
    Seri.seri b.blocks b.len = bytes := by
  have bound : b.current.length ≤ BLOCK_SIZE := by
    rw [holds.ptr]
    exact holds.ptr_le
  have copied := seri_flatten b.previous b.current holds.full bound
  rw [holds.contents, ← holds.len] at copied
  exact copied

end EasyLua.Seri
