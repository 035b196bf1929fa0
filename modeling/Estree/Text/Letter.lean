/-
Estree/Text/Letter.lean

Classes of characters: letters and alphanumeric characters by their Unicode properties.
-/
import Estree.Text.Table.Alphabetic
import Estree.Text.Table.Numeric

namespace Estree.Text

/-- Whether a character lies in one of the ranges of a table. -/
def inRanges (table : List (Nat × Nat)) (c : Char) : Bool :=
  table.any fun range => range.1 ≤ c.toNat && c.toNat ≤ range.2

/-- Characters with the property Alphabetic. -/
def isAlphabetic (c : Char) : Bool :=
  inRanges alphabeticRanges c

/-- Alphabetic characters and characters of the number categories. -/
def isAlphanumeric (c : Char) : Bool :=
  inRanges alphabeticRanges c || inRanges numericRanges c

end Estree.Text
