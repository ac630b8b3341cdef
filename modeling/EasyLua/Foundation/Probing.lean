import Mathlib.Algebra.Order.Ring.Int
import Mathlib.Data.Fintype.Card
import Mathlib.Data.Nat.ModEq

/-!
# Slots chosen by residues

A table of slots in which an entry stands in the slot that is the residue of its key. As many
keys as slots, counted up one after the other, visit every slot. A full table has no more
slots than live entries, and in a table of twice the size, filled from it, a slot is free.
-/

namespace Probing

/-- As many keys as slots, one after the other, visit every slot. -/
theorem exists_visit {size : Nat} (start : Nat) {slot : Nat} (inside : slot < size) :
    ∃ i < size, (i + start) % size = slot := by
  have below : start % size < size := Nat.mod_lt _ (by omega)
  refine ⟨(slot + (size - start % size)) % size, Nat.mod_lt _ (by omega), ?_⟩
  have whole : slot + (size - start % size) + start = slot + size * (1 + start / size) := by
    have split := Nat.mod_add_div start size
    rw [Nat.mul_add, Nat.mul_one]
    omega
  rw [Nat.mod_add_mod, whole, Nat.add_mul_mod_self_left, Nat.mod_eq_of_lt inside]

variable {T : Type*} {size : Nat} {slot : Nat → Option T} {live : T → Prop} {key : T → Nat}

/-- Every live entry is in the slot of its key. -/
def Placed (size : Nat) (slot : Nat → Option T) (live : T → Prop) (key : T → Nat) : Prop :=
  ∀ i < size, ∀ entry, slot i = some entry → live entry → key entry % size = i

/-- Fewer entries and fewer live ones are still in their slots. -/
theorem Placed.mono (placed : Placed size slot live key) {changed : Nat → Option T}
    {remaining : T → Prop}
    (less : ∀ i entry, changed i = some entry → remaining entry →
      slot i = some entry ∧ live entry) : Placed size changed remaining key := by
  intro i inside entry found stays
  obtain ⟨old, alive⟩ := less i entry found stays
  exact placed i inside entry old alive

/-- The entries of a full table have different slots in a table of twice the size. -/
theorem Placed.double_inj (placed : Placed size slot live key) {i j : Nat} (insideFirst : i < size)
    (insideSecond : j < size) {first second : T} (isFirst : slot i = some first)
    (isSecond : slot j = some second) (liveFirst : live first) (liveSecond : live second)
    (same : key first % (size * 2) = key second % (size * 2)) : i = j := by
  have left := placed i insideFirst first isFirst liveFirst
  have right := placed j insideSecond second isSecond liveSecond
  rw [← Nat.mod_mod_of_dvd _ (Nat.dvd_mul_right size 2), same,
    Nat.mod_mod_of_dvd _ (Nat.dvd_mul_right size 2)] at left
  exact left.symm.trans right

/-- A full table has no more slots than there are live entries. -/
theorem Placed.size_le {entries : List T} (placed : Placed size slot (· ∈ entries) key)
    (full : ∀ i < size, ∃ entry ∈ entries, slot i = some entry) : size ≤ entries.length := by
  classical
  choose entryOf stored found using fun i : Fin size => full i.val i.isLt
  have different : Function.Injective entryOf := by
    intro first second same
    have left := placed first.val first.isLt _ (found first) (stored first)
    have right := placed second.val second.isLt _ (found second) (stored second)
    rw [same, right] at left
    exact Fin.ext left.symm
  have counted : Finset.univ.card ≤ entries.toFinset.card :=
    Finset.card_le_card_of_injOn entryOf (fun i _ => by simpa using stored i)
      (fun first _ second _ same => different same)
  rw [Finset.card_univ, Fintype.card_fin] at counted
  exact Nat.le_trans counted entries.toFinset_card_le

/-- A slot of the table of twice the size is free. -/
theorem Placed.exists_free (placed : Placed size slot live key) (positive : 0 < size)
    (allLive : ∀ i < size, ∀ entry, slot i = some entry → live entry)
    {doubled : Nat → Option T}
    (moved : ∀ j entry, doubled j = some entry →
      ∃ i < size, slot i = some entry ∧ key entry % (size * 2) = j) :
    ∃ j < size * 2, doubled j = none := by
  -- the entry of slot 0 goes to slot 0 or to slot `size`, and no other entry to either
  by_contra occupied
  have stored : ∀ j < size * 2, ∃ entry, doubled j = some entry := by
    intro j inside
    rcases found : doubled j with _ | entry
    · exact absurd ⟨j, inside, found⟩ occupied
    · exact ⟨entry, rfl⟩
  have origin : ∀ j < size * 2, j % size = 0 →
      ∃ entry, slot 0 = some entry ∧ key entry % (size * 2) = j := by
    intro j inside multiple
    obtain ⟨entry, found⟩ := stored j inside
    obtain ⟨i, below, isEntry, residue⟩ := moved j entry found
    have place := placed i below entry isEntry (allLive i below entry isEntry)
    rw [← Nat.mod_mod_of_dvd _ (Nat.dvd_mul_right size 2), residue, multiple] at place
    subst place
    exact ⟨entry, isEntry, residue⟩
  obtain ⟨first, isFirst, low⟩ := origin 0 (by omega) (Nat.zero_mod size)
  obtain ⟨second, isSecond, high⟩ := origin size (by omega) (Nat.mod_self size)
  rw [isFirst] at isSecond
  cases Option.some.inj isSecond
  omega

/-- A larger table, each entry of which was moved from a slot to where its key says, has a free
slot. -/
theorem exists_free_of_moved {larger : Nat} (more : size < larger) {moved : Nat → Option T}
    (origin : ∀ j entry, moved j = some entry → ∃ i < size, slot i = some entry ∧ key entry = j) :
    ∃ j < larger, moved j = none := by
  classical
  by_contra occupied
  have stored : ∀ j : Fin larger, ∃ i : Fin size, ∃ entry, slot i = some entry ∧
      key entry = j := by
    intro j
    rcases found : moved j with _ | entry
    · exact absurd ⟨j.val, j.isLt, found⟩ occupied
    · obtain ⟨i, below, isEntry, place⟩ := origin j entry found
      exact ⟨⟨i, below⟩, entry, isEntry, place⟩
  choose slotOf entryOf isEntry place using stored
  have different : Function.Injective slotOf := by
    intro first second same
    have left := isEntry first
    rw [same, isEntry second] at left
    have entries := Option.some.inj left
    have keys := place first
    rw [← entries, place second] at keys
    exact Fin.ext keys.symm
  have counted := Fintype.card_le_of_injective slotOf different
  rw [Fintype.card_fin, Fintype.card_fin] at counted
  omega

end Probing
