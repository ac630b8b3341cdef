import EasyLua.Seri.Format

/-!
# The format parser has enough fuel

Every value consumes its first byte before it recurses, and every round of a loop reads a
value. So as much fuel as there are bytes is never used up.
-/

namespace EasyLua.Seri.Format

/-- Inputs shorter than the bound do not use up the fuel. -/
abbrev Fueled {α : Type} (bound least : Nat) (parser : ByteParser α) : Prop :=
  parser.Sufficient (· = Failure.outOfFuel) bound least

variable {bound : Nat}

theorem parseNumber_fueled (count : Nat) : Fueled bound count (parseNumber count) :=
  (Parser.Sufficient.take nofun count).bind fun _ => .pure _

theorem parseBits_fueled : Fueled bound 8 parseBits :=
  (parseNumber_fueled 8).bind fun _ => .pure _

theorem parseInteger_fueled : ∀ cookie, Fueled bound 0 (parseInteger cookie)
  | 0 => .pure _
  | 1 => (parseNumber_fueled 1).andThen fun _ => .pure _
  | 2 => (parseNumber_fueled 2).andThen fun _ => .pure _
  | 4 => (parseNumber_fueled 4).andThen fun _ => .pure _
  | 6 => (parseNumber_fueled 8).andThen fun _ => .pure _
  | 3 => .throw nofun
  | 5 => .throw nofun
  | _ + 7 => .throw nofun

theorem parseString_fueled (length : Nat) : Fueled bound 0 (parseString length) :=
  (Parser.Sufficient.take nofun length).andThen fun _ => .pure _

theorem parseLongString_fueled : Fueled bound 0 parseLongString := by
  apply (parseNumber_fueled 4).andThen
  intro length
  exact .ite (.throw nofun) (parseString_fueled length)

theorem parseHeader_fueled : Fueled bound 1 parseHeader :=
  (parseNumber_fueled 1).bind fun _ => .pure _

theorem parseArraySize_fueled (cookie : Nat) : Fueled bound 0 (parseArraySize cookie) := by
  unfold parseArraySize
  refine .ite ?_ (.pure _)
  apply parseHeader_fueled.andThen
  intro pair
  exact .ite (.throw nofun) ((parseInteger_fueled pair.2).andThen fun _ => .pure _)

theorem parseArray_fueled {parseOne : ByteParser Data} (one : Fueled bound 1 parseOne)
    (count : Nat) (i : Int) (table : NewTable) :
    Fueled bound 0 (parseArray parseOne count i table) := by
  induction count generalizing i table with
  | zero => exact .pure table
  | succ count ih => exact one.andThen fun value => ih (i + 1) (table.rawseti i value)

theorem badKey_fueled {α : Type} : Fueled bound 0 (throw .badKey : ByteParser α) :=
  .throw nofun

/-- Every key consumes a byte, so `fuel` rounds are enough for fewer than `fuel` bytes. -/
theorem parseHash_fueled {parseOne : ByteParser Data} (one : Fueled bound 1 parseOne)
    (fuel : Nat) (below : fuel ≤ bound) (table : NewTable) :
    Fueled fuel 0 (parseHash parseOne fuel table) := by
  induction fuel generalizing table with
  | zero => exact .zero _
  | succ fuel ih =>
      have rest := ih (by omega)
      refine ((one.mono below).step fun key => ?_).forget
      cases key with
      | nil => exact .pure _
      | scalar _ | table _ _ =>
          apply (one.mono (Nat.le_of_succ_le below)).andThen
          intro value
          split
          · exact rest _
          · exact badKey_fueled

theorem parseTable_fueled {parseOne : ByteParser Data} (fuel : Nat)
    (one : Fueled fuel 1 parseOne) (cookie : Nat) :
    Fueled fuel 0 (parseTable fuel parseOne cookie) := by
  apply (parseArraySize_fueled cookie).andThen
  intro arraySize
  apply (parseArray_fueled one _ 1 .empty).andThen
  intro table
  exact parseHash_fueled one fuel (Nat.le_refl fuel) table

/-- A value after its header, one case per type. -/
theorem parseValue_fueled {parseOne : ByteParser Data} (fuel : Nat)
    (one : Fueled fuel 1 parseOne) :
    ∀ type cookie, Fueled fuel 0 (parseValue fuel parseOne type cookie)
  | 0, _ => .pure _
  | 1, _ => .pure _
  | 2, cookie => .ite (parseBits_fueled.andThen fun _ => .pure _)
      ((parseInteger_fueled cookie).andThen fun _ => .pure _)
  | 3, _ => parseBits_fueled.andThen fun _ => .pure _
  | 4, cookie => parseString_fueled cookie
  | 5, _ => .ite ((parseNumber_fueled 2).andThen fun length => parseString_fueled length)
      (.ite parseLongString_fueled (.throw nofun))
  | 6, cookie => parseTable_fueled fuel one cookie
  | _ + 7, _ => .throw nofun

/-- One value, by induction on the fuel: its header leaves fewer bytes. -/
theorem parseOne_fueled (fuel : Nat) : Fueled fuel 1 (parseOne fuel) := by
  induction fuel with
  | zero => exact .zero _
  | succ fuel ih =>
      exact parseHeader_fueled.step fun pair => parseValue_fueled fuel ih pair.1 pair.2

theorem parseFrom_fueled (fuel : Nat) : Fueled fuel 0 (parseFrom fuel) := by
  induction fuel with
  | zero => exact .zero _
  | succ fuel ih =>
      refine .orEnd [] ?_
      refine ((parseOne_fueled (fuel + 1)).step fun value => ?_).forget
      exact ih.andThen fun rest => .pure _

/-- **The fuel of `parse` is enough.** -/
theorem parse_ne_outOfFuel (bytes : Bytes) : parse bytes ≠ .error .outOfFuel := by
  have enough := parseFrom_fueled (bytes.length + 1) bytes (Nat.lt_succ_self _)
  unfold parse
  cases parsed : parseFrom (bytes.length + 1) bytes with
  | ok result => exact nofun
  | error failure =>
      rw [parsed] at enough
      intro same
      exact enough (Except.error.inj same)

end EasyLua.Seri.Format
