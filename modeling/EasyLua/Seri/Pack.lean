import EasyLua.Foundation.LittleEndian
import EasyLua.Seri.WriteBlock

/-!
# Packing

`luaseri_pack` of `lua-seri.cpp` and the functions it calls. A value is written as a
byte that combines a type with a five-bit cookie, and what follows it. The values of a
call and the contents of its tables are packed by one recursion whose depth is bounded
by `MAX_DEPTH`.
-/

namespace EasyLua.Seri

@[match_pattern] abbrev TYPE_NIL : Nat := 0
@[match_pattern] abbrev TYPE_BOOLEAN : Nat := 1
@[match_pattern] abbrev TYPE_NUMBER : Nat := 2
@[match_pattern] abbrev TYPE_NUMBER_ZERO : Nat := 0
@[match_pattern] abbrev TYPE_NUMBER_BYTE : Nat := 1
@[match_pattern] abbrev TYPE_NUMBER_WORD : Nat := 2
@[match_pattern] abbrev TYPE_NUMBER_DWORD : Nat := 4
@[match_pattern] abbrev TYPE_NUMBER_QWORD : Nat := 6
@[match_pattern] abbrev TYPE_NUMBER_REAL : Nat := 8
@[match_pattern] abbrev TYPE_USERDATA : Nat := 3
@[match_pattern] abbrev TYPE_SHORT_STRING : Nat := 4
@[match_pattern] abbrev TYPE_LONG_STRING : Nat := 5
@[match_pattern] abbrev TYPE_TABLE : Nat := 6

def MAX_COOKIE : Int := 32

def MAX_DEPTH : Nat := 32

/-- A conversion to `int`: the low 32 bits, signed. -/
def toInt (value : Int) : Int := (BitVec.ofInt 32 value).toInt

/-- The conversion to `int` keeps a length below `2 ^ 31`. -/
theorem toInt_natCast {length : Nat} (small : length < 2 ^ 31) : toInt length = length := by
  unfold toInt
  rw [BitVec.toInt_ofInt, Int.bmod_eq_of_le (by omega) (by omega)]

/-- The conversion to `int` makes a larger length negative. -/
theorem toInt_of_huge {length : Nat} (huge : 2 ^ 31 ≤ length) (bound : length < 256 ^ 4) :
    toInt length = length - 2 ^ 32 := by
  unfold toInt
  rw [BitVec.toInt_ofInt, Int.bmod_def]
  omega

/-- `COMBINE_TYPE`, computed on `int` and stored in a byte. -/
def combineType (type : Nat) (cookie : Int) : UInt8 :=
  UInt8.ofNat (BitVec.ofNat 32 type ||| BitVec.ofInt 32 cookie <<< 3).toNat

/-- `wb_nil`. -/
def wbNil (wb : WriteBlock) : WriteBlock := wb.push [combineType TYPE_NIL 0]

/-- `wb_boolean`. -/
def wbBoolean (wb : WriteBlock) (boolean : Bool) : WriteBlock :=
  wb.push [combineType TYPE_BOOLEAN (if boolean then 1 else 0)]

/-- `wb_integer`. -/
def wbInteger (wb : WriteBlock) (v : BitVec 64) : WriteBlock :=
  if v = 0 then wb.push [combineType TYPE_NUMBER TYPE_NUMBER_ZERO]
  else if v ≠ (v.setWidth 32).signExtend 64 then
    (wb.push [combineType TYPE_NUMBER TYPE_NUMBER_QWORD]).push (LittleEndian.encode 8 v.toNat)
  else if v.toInt < 0 then
    (wb.push [combineType TYPE_NUMBER TYPE_NUMBER_DWORD]).push
      (LittleEndian.encode 4 (v.setWidth 32).toNat)
  else if v.toInt < 0x100 then
    (wb.push [combineType TYPE_NUMBER TYPE_NUMBER_BYTE]).push
      (LittleEndian.encode 1 (v.setWidth 8).toNat)
  else if v.toInt < 0x10000 then
    (wb.push [combineType TYPE_NUMBER TYPE_NUMBER_WORD]).push
      (LittleEndian.encode 2 (v.setWidth 16).toNat)
  else
    (wb.push [combineType TYPE_NUMBER TYPE_NUMBER_DWORD]).push
      (LittleEndian.encode 4 (v.setWidth 32).toNat)

/-- `wb_real`, on the bits of the double. -/
def wbReal (wb : WriteBlock) (bits : BitVec 64) : WriteBlock :=
  (wb.push [combineType TYPE_NUMBER TYPE_NUMBER_REAL]).push (LittleEndian.encode 8 bits.toNat)

/-- `wb_pointer`. -/
def wbPointer (wb : WriteBlock) (v : BitVec 64) : WriteBlock :=
  (wb.push [combineType TYPE_USERDATA 0]).push (LittleEndian.encode 8 v.toNat)

/-- `wb_string`, with the length as the caller has converted it. -/
def wbString (wb : WriteBlock) (str : Bytes) (len : Int) : WriteBlock :=
  if len < MAX_COOKIE then
    let wb := wb.push [combineType TYPE_SHORT_STRING len]
    if len > 0 then wb.push (str.take len.toNat) else wb
  else
    let wb :=
      if len < 0x10000 then
        (wb.push [combineType TYPE_LONG_STRING 2]).push (LittleEndian.encode 2 len.toNat)
      else
        (wb.push [combineType TYPE_LONG_STRING 4]).push (LittleEndian.encode 4 len.toNat)
    wb.push (str.take len.toNat)

/-- How the contents of a table are packed. -/
abbrev PackOne := WriteBlock → LuaValue → Except String WriteBlock

/-- `wb_table_array`: the header and the fields `1` to `array_size`. -/
def wbTableArray (packOne : PackOne) (wb : WriteBlock) (table : LuaTable) :
    Except String (WriteBlock × Int) := do
  let arraySize := toInt table.border
  let wb :=
    if arraySize ≥ MAX_COOKIE - 1 then
      wbInteger (wb.push [combineType TYPE_TABLE (MAX_COOKIE - 1)]) (BitVec.ofInt 64 arraySize)
    else wb.push [combineType TYPE_TABLE arraySize]
  let wb ← (List.range arraySize.toNat).foldlM
    (fun wb (i : Nat) => packOne wb (table.rawgeti (i + 1))) wb
  return (wb, arraySize)

/-- A key that `wb_table_array` has already packed. -/
def LuaValue.inArray (arraySize : Int) : LuaValue → Bool
  | .scalar (.integer x) => x.toInt > 0 ∧ x.toInt ≤ arraySize
  | _ => false

/-- `wb_table_hash`: the other entries and the closing nil. -/
def wbTableHash (packOne : PackOne) (wb : WriteBlock) (table : LuaTable) (arraySize : Int) :
    Except String WriteBlock := do
  let wb ← table.entries.foldlM (fun wb entry =>
    if entry.1.inArray arraySize then pure wb
    else do
      let wb ← packOne wb entry.1
      packOne wb entry.2) wb
  return wbNil wb

/-- `wb_table_metapairs`: the pairs that the iterator yields before nil. -/
def wbTableMetapairs (packOne : PackOne) (wb : WriteBlock) (pairs : List (LuaValue × LuaValue)) :
    Except String WriteBlock := do
  let wb ← pairs.foldlM (fun wb pair => do
    let wb ← packOne wb pair.1
    packOne wb pair.2) (wb.push [combineType TYPE_TABLE 0])
  return wbNil wb

/-- `wb_table`. -/
def wbTable (packOne : PackOne) (wb : WriteBlock) (table : LuaTable) :
    Except String WriteBlock :=
  match table.pairs with
  | some pairs => wbTableMetapairs packOne wb pairs
  | none => do
      let (wb, arraySize) ← wbTableArray packOne wb table
      wbTableHash packOne wb table arraySize

/-- `pack_one`, at the depth at which `remaining` more levels are allowed: the depth is
beyond `MAX_DEPTH` when none is left. -/
def packOne (heap : Heap) : Nat → PackOne
  | 0, _, _ => throw "serialize can't pack too depth table"
  | remaining + 1, wb, value =>
      match value with
      | .nil => return wbNil wb
      | .scalar (.integer x) => return wbInteger wb x
      | .scalar (.number bits) => return wbReal wb bits
      | .scalar (.boolean boolean) => return wbBoolean wb boolean
      | .scalar (.string str) => return wbString wb str (toInt str.length)
      | .scalar (.lightUserdata pointer) => return wbPointer wb pointer
      | .table ref => wbTable (packOne heap remaining) wb (heap ref)
      | .unsupported typename _ => throw ("Unsupport type " ++ typename ++ " to serialize")

/-- `pack_from`. -/
def packFrom (heap : Heap) (wb : WriteBlock) (values : List LuaValue) :
    Except String WriteBlock :=
  values.foldlM (packOne heap (MAX_DEPTH + 1)) wb

/-- `luaseri_pack`: the buffer and its length. -/
def luaseriPack (heap : Heap) (values : List LuaValue) : Except String (Bytes × Int) := do
  let wb ← packFrom heap .init values
  return (seri wb.blocks wb.len, wb.len)

end EasyLua.Seri
