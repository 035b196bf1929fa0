/-
Estree/Builtin/Range.lean

The part of a sequence that two optional arguments select: positions count from the start, or
from the end if they are negative, and are cut to the sequence.
-/
import Estree.Convert

namespace Estree

/-- A position in a sequence of a given length. -/
def position (length : Nat) (x : Float) : Nat :=
  match Double.truncate? x with
  | some n => if n < 0 then ((length : Int) + n).toNat else min n.toNat length
  | none => if x > 0 then length else 0

/-- A position given by an argument, with the one that is meant when there is none. -/
def positionOf (length : Nat) (arg : Option Value) (default : Nat) : Run Store Nat :=
  match arg with
  | none | some .undefined => pure default
  | some v => do return position length (← Convert.number v)

/-- Start and end of the selected part; the end is never before the start. -/
def relativeRange (length : Nat) (args : List Value) : Run Store (Nat × Nat) := do
  let start ← positionOf length args[0]? 0
  let stop ← positionOf length args[1]? length
  return (start, max start stop)

end Estree
