import EasyLua.Registry.Register

/-!
# The handle manager

`HandleManager` of `handleManager.h`. Its slots hold `weak_ptr`s; a handle is a number of 32
bits, and the low ones are its slot. Which objects are alive and what their `handle()`
returns is given to every operation. All operations run under `mutex_`.
-/

namespace EasyLua

/-- `handle_name`. -/
structure HandleName where
  name : List UInt8
  handle : UInt32

/-- `HandleManager`. The first `slot_size` slots and the first `name_count` names are those of
the arrays. -/
structure HandleManager (T : Type) where
  handle_index : UInt32
  slot_size : Nat
  slot : Nat → Option T
  name_cap : Nat
  nameArray : List HandleName

namespace HandleManager

def DEFAULT_SLOT_SIZE : Nat := 4

def MAX_SLOT_SIZE : Nat := 0x40000000

/-- Why an operation does not return. -/
inductive Failure
  /-- `assert(!new_slot[hash].lock())` fails, or the assertion on the new `name_cap`. -/
  | assertion
  /-- A `weak_ptr` that has expired is dereferenced. -/
  | nullPointer
  | outOfFuel

variable {T : Type}

/-- `HandleManager::HandleManager`. -/
def init : HandleManager T where
  handle_index := 1
  slot_size := DEFAULT_SLOT_SIZE
  slot := fun _ => none
  name_cap := 2
  nameArray := []

/-- `handle & (size - 1)`. -/
def hash (handle : UInt32) (size : Nat) : Nat := (handle &&& UInt32.ofNat (size - 1)).toNat

section Operations

variable (alive : T → Bool) (handle : T → UInt32)

/-- `lock()` of a slot. -/
def lockSlot (slot : Nat → Option T) (i : Nat) : Option T := (slot i).bind (EasyLua.lock alive)

/-- The first loop of `checkIn`, with `count` rounds left from `i` on: the handle, and the
manager with the object under it. -/
def probe (manager : HandleManager T) (ctx : T) : Nat → Nat → Option (UInt32 × HandleManager T)
  | 0, _ => none
  | count + 1, i =>
      let handle := UInt32.ofNat i + manager.handle_index
      let hash := hash handle manager.slot_size
      if (lockSlot alive manager.slot hash).isNone then
        some (handle, { manager with
          slot := Function.update manager.slot hash (some ctx)
          handle_index := handle + 1 })
      else probe manager ctx count (i + 1)

/-- The second loop of `checkIn`, with `count` rounds left from `i` on. -/
def rehash (manager : HandleManager T) :
    Nat → Nat → (Nat → Option T) → Except Failure (Nat → Option T)
  | 0, _, new_slot => .ok new_slot
  | count + 1, i, new_slot =>
      match lockSlot alive manager.slot i with
      | none => .error .nullPointer
      | some ctx =>
          let hash := hash (handle ctx) (manager.slot_size * 2)
          if (lockSlot alive new_slot hash).isSome then .error .assertion
          else rehash manager count (i + 1) (Function.update new_slot hash (manager.slot i))

/-- `HandleManager::checkIn`. -/
def checkIn (ctx : T) : Nat → HandleManager T → Except Failure (UInt32 × HandleManager T)
  | 0, _ => .error .outOfFuel
  | fuel + 1, manager =>
      match probe alive manager ctx manager.slot_size 0 with
      | some result => .ok result
      | none =>
          match rehash alive handle manager manager.slot_size 0 fun _ => none with
          | .ok new_slot =>
              checkIn ctx fuel { manager with
                slot := new_slot
                slot_size := manager.slot_size * 2 }
          | .error failure => .error failure

/-- `HandleManager::grab`. -/
def grab (manager : HandleManager T) (handle_ : UInt32) : Option T :=
  match lockSlot alive manager.slot (hash handle_ manager.slot_size) with
  | some ctx => if handle ctx = handle_ then some ctx else none
  | none => none

/-- `HandleManager::retire`, and whether it returns 1. -/
def retire (manager : HandleManager T) (handle_ : UInt32) : Bool × HandleManager T :=
  let hash := hash handle_ manager.slot_size
  match lockSlot alive manager.slot hash with
  | some ctx =>
      if handle ctx = handle_ then
        (true, { manager with
          slot := Function.update manager.slot hash none
          nameArray := manager.nameArray.filter fun n => n.handle ≠ handle_ })
      else (false, manager)
  | none => (false, manager)

/-- The inner loop of `retireAll`, with `count` rounds left from `i` on: whether it has
retired an object. -/
def retireSlots : Nat → Nat → HandleManager T → Bool × HandleManager T
  | 0, _, manager => (false, manager)
  | count + 1, i, manager =>
      match lockSlot alive manager.slot i with
      | some ctx =>
          if handle ctx ≠ 0 then
            let (retired, manager) := retire alive handle manager (handle ctx)
            let (more, manager) := retireSlots count (i + 1) manager
            (retired || more, manager)
          else retireSlots count (i + 1) manager
      | none => retireSlots count (i + 1) manager

/-- `HandleManager::retireAll`. -/
def retireAll : Nat → HandleManager T → Except Failure (HandleManager T)
  | 0, _ => .error .outOfFuel
  | fuel + 1, manager =>
      match retireSlots alive handle manager.slot_size 0 manager with
      | (true, manager) => retireAll fuel manager
      | (false, manager) => .ok manager

end Operations

end HandleManager

end EasyLua
