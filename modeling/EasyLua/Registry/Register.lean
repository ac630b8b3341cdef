import Mathlib.Data.List.Basic

/-!
# The registry of weak references

`Register` of `register.h`. An entry holds a `weak_ptr`, so it names an object
without keeping it: whether the object is still alive is a matter of the owners at
the time of the call, and every operation that locks an entry is given it.
-/

namespace EasyLua

/-- `weak_ptr::lock`: null when the object has been destroyed. -/
def lock {Value : Type} (alive : Value → Bool) (weak : Value) : Option Value :=
  if alive weak then some weak else none

/-- `Register`: its `map_`. -/
structure Register (Key Value : Type) [Ord Key] where
  map_ : Std.TreeMap Key Value compare := ∅

namespace Register

variable {Key Value : Type} [Ord Key]

/-- `Register::fetch`. -/
def fetch (alive : Value → Bool) (register : Register Key Value) (key : Key) : Option Value :=
  match register.map_[key]? with
  | none => none
  | some weak => lock alive weak

/-- `Register::fetchOrCreate`, where `obj` is the object that the constructor returns. -/
def fetchOrCreate (alive : Value → Bool) (register : Register Key Value) (key : Key)
    (obj : Value) : Option Value × Register Key Value :=
  match register.map_[key]? with
  | some weak => (lock alive weak, register)
  | none => (some obj, { map_ := register.map_.insert key obj })

/-- `Register::checkIn`, and whether it added a destructor callback to the value. -/
def checkIn (handle : Value → Key) (register : Register Key Value) (value : Value) :
    Register Key Value × Bool :=
  match register.map_[handle value]? with
  | some _ => (register, false)
  | none => ({ map_ := register.map_.insert (handle value) value }, true)

/-- `Register::removeItemCallback` of a registry that still exists. -/
def removeItemCallback (register : Register Key Value) (key : Key) : Register Key Value :=
  { map_ := register.map_.erase key }

theorem lock_eq_some {alive : Value → Bool} {weak value : Value} :
    lock alive weak = some value ↔ alive weak = true ∧ weak = value := by
  unfold lock
  split <;> simp [*]

/-- An entry of a living object is fetched. -/
theorem fetch_eq_some {alive : Value → Bool} {register : Register Key Value} {key : Key}
    {value : Value} (entry : register.map_[key]? = some value) (living : alive value = true) :
    register.fetch alive key = some value := by
  unfold fetch
  rw [entry]
  exact lock_eq_some.mpr ⟨living, rfl⟩

theorem getElem?_insert_of_ne [Std.TransOrd Key] [Std.LawfulEqOrd Key]
    (map : Std.TreeMap Key Value compare) {key other : Key} (value : Value)
    (different : other ≠ key) : (map.insert key value)[other]? = map[other]? := by
  have apart : compare key other ≠ .eq := fun same =>
    different (Std.LawfulEqCmp.compare_eq_iff_eq.mp same).symm
  rw [Std.TreeMap.getElem?_insert, if_neg apart]

/-- What `fetchOrCreate` does: it creates under a new key, and locks the entry of a
known one, whatever has become of its object. -/
theorem fetchOrCreate_cases (alive : Value → Bool) (register : Register Key Value) (key : Key)
    (obj : Value) :
    (register.map_[key]? = none ∧
      register.fetchOrCreate alive key obj =
        (some obj, { map_ := register.map_.insert key obj })) ∨
    (∃ weak, register.map_[key]? = some weak ∧
      register.fetchOrCreate alive key obj = (lock alive weak, register)) := by
  unfold fetchOrCreate
  cases entry : register.map_[key]? with
  | none => exact Or.inl ⟨rfl, rfl⟩
  | some weak => exact Or.inr ⟨weak, rfl, rfl⟩

/-- What `checkIn` does: it inserts under a free key, and ignores the value under a taken
one. -/
theorem checkIn_cases (handle : Value → Key) (register : Register Key Value) (value : Value) :
    (∃ other, register.map_[handle value]? = some other ∧
      register.checkIn handle value = (register, false)) ∨
    (register.map_[handle value]? = none ∧
      register.checkIn handle value =
        ({ map_ := register.map_.insert (handle value) value }, true)) := by
  unfold checkIn
  cases entry : register.map_[handle value]? with
  | some other => exact Or.inl ⟨other, rfl, rfl⟩
  | none => exact Or.inr ⟨rfl, rfl⟩

end Register

end EasyLua
