/-
Estree/Text/Units.lean

Texts as sequences of UTF-16 code units.  A character up to U+FFFF is one unit, every other
character is a pair of surrogates.  Lengths, indices and the order of texts are those of the
unit sequences.
-/

namespace Estree.Text

/-- The UTF-16 units of a character. -/
def unitsOfChar (c : Char) : List Nat :=
  let n := c.toNat
  if n < 0x10000 then [n] else [0xD800 + (n - 0x10000) / 0x400, 0xDC00 + (n - 0x10000) % 0x400]

/-- The UTF-16 units of a text. -/
def units (s : String) : List Nat :=
  s.toList.flatMap unitsOfChar

/-- The number of units of a character. -/
def unitCount (c : Char) : Nat :=
  if c.toNat < 0x10000 then 1 else 2

/-- The number of units of a text. -/
def unitLength (s : String) : Nat :=
  s.foldl (fun n c => n + unitCount c) 0

/-- The unit at an index. -/
def unitAt? (s : String) (index : Nat) : Option Nat :=
  (units s)[index]?

/-- A unit as a character of its own; half of a surrogate pair has none and reads as the
replacement character. -/
def charOfUnit (unit : Nat) : Char :=
  if 0xD800 ≤ unit ∧ unit ≤ 0xDFFF then Char.ofNat 0xFFFD else Char.ofNat unit

/-- The lexicographic order of unit sequences. -/
def compareUnits : List Nat → List Nat → Ordering
  | [], [] => .eq
  | [], _ :: _ => .lt
  | _ :: _, [] => .gt
  | a :: as, b :: bs => if a < b then .lt else if b < a then .gt else compareUnits as bs

/-- The order of two texts by their units. -/
def compareText (a b : String) : Ordering :=
  compareUnits (units a) (units b)

end Estree.Text
