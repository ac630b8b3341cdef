import EasyLua.Foundation.LittleEndian

/-!
# Numbers in memory

A piece of memory is a function from offsets to bytes. Numbers are stored and loaded with
their low byte first; what is loaded is what was stored last at the place, and a store leaves
other places alone.
-/

namespace ByteMemory

/-- The memory after `bytes` were copied to an offset. -/
def write (memory : Nat → UInt8) (offset : Nat) (bytes : List UInt8) : Nat → UInt8 := fun i =>
  if offset ≤ i then (bytes[i - offset]?).getD (memory i) else memory i

/-- The bytes of a region. -/
def read (memory : Nat → UInt8) (offset count : Nat) : List UInt8 :=
  (List.range count).map fun i => memory (offset + i)

def store (memory : Nat → UInt8) (offset count number : Nat) : Nat → UInt8 :=
  write memory offset (LittleEndian.encode count number)

def load (memory : Nat → UInt8) (offset count : Nat) : Nat :=
  LittleEndian.decode (read memory offset count)

variable {memory : Nat → UInt8} {offset count number place size : Nat} {bytes : List UInt8}

theorem read_write_self : read (write memory offset bytes) offset bytes.length = bytes := by
  apply List.ext_getElem
  · rw [read, List.length_map, List.length_range]
  · intro i _ inside
    simp only [read, write, List.getElem_map, List.getElem_range, Nat.le_add_right, if_true,
      Nat.add_sub_cancel_left, List.getElem?_eq_getElem inside, Option.getD_some]

/-- A region beside the written one keeps its bytes. -/
theorem read_write_of_apart (apart : offset + bytes.length ≤ place ∨ place + size ≤ offset) :
    read (write memory offset bytes) place size = read memory place size := by
  refine List.map_congr_left fun i member => ?_
  have inside := List.mem_range.mp member
  unfold write
  by_cases behind : offset ≤ place + i
  · rw [if_pos behind, List.getElem?_eq_none (by omega), Option.getD_none]
  · rw [if_neg behind]

/-- A part of a region. -/
theorem read_part {skip part : Nat} (inside : skip + part ≤ size) :
    ((read memory place size).drop skip).take part = read memory (place + skip) part := by
  apply List.ext_getElem
  · simp [read]
    omega
  · intro i _ _
    simp [read, Nat.add_assoc]

/-- A number is loaded as it was stored. -/
theorem load_store_self (small : number < 256 ^ count) :
    load (store memory offset count number) offset count = number := by
  have region := @read_write_self memory offset (LittleEndian.encode count number)
  rw [LittleEndian.length_encode] at region
  unfold load store
  rw [region, LittleEndian.decode_encode_of_lt small]

theorem load_store_of_apart (apart : offset + count ≤ place ∨ place + size ≤ offset) :
    load (store memory offset count number) place size = load memory place size := by
  unfold load store
  rw [read_write_of_apart (by rwa [LittleEndian.length_encode])]

end ByteMemory
