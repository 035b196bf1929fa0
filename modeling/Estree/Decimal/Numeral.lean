/-
Estree/Decimal/Numeral.lean

Reading decimal literals: an optional sign, digits with an optional point (at least one digit
on either side of it), and an optional exponent.  The value is the double nearest to the
number that is written, infinity if it is too large.

A whole text is also a double if it is one of the words for infinity and NaN (`double?`).
-/
import Estree.Decimal.Shortest

namespace Estree

/-- A decimal literal taken apart: `± digits · 10 ^ exponent`. -/
structure Numeral where
  negative : Bool
  digits : Nat
  exponent : Int
deriving DecidableEq

namespace Numeral

/-- The value of a digit. -/
def digitValue (c : Char) : Nat :=
  c.toNat - '0'.toNat

/-- The number written by a list of digits. -/
def natOfDigits (cs : List Char) : Nat :=
  cs.foldl (fun n c => 10 * n + digitValue c) 0

/-- An optional sign: whether it is a minus, and the rest. -/
def splitSign : List Char → Bool × List Char
  | '-' :: rest => (true, rest)
  | '+' :: rest => (false, rest)
  | rest => (false, rest)

/-- The exponent part: nothing, or a mark, an optional sign and at least one digit. -/
def exponent? : List Char → Option Int
  | [] => some 0
  | c :: rest =>
    if c = 'e' ∨ c = 'E' then
      let (negative, ds) := splitSign rest
      if ds.isEmpty || !ds.all Char.isDigit then none
      else
        let n : Int := natOfDigits ds
        some (if negative then -n else n)
    else none

/-- A literal after its sign. -/
def magnitude? (negative : Bool) (cs : List Char) : Option Numeral :=
  let whole := cs.takeWhile Char.isDigit
  let afterWhole := cs.dropWhile Char.isDigit
  let (places, rest) :=
    match afterWhole with
    | '.' :: r => (r.takeWhile Char.isDigit, r.dropWhile Char.isDigit)
    | r => ([], r)
  if whole.isEmpty && places.isEmpty then none
  else
    (exponent? rest).map fun e =>
      ⟨negative, natOfDigits (whole ++ places), e - places.length⟩

/-- Read a whole text as a decimal literal. -/
def ofChars? (cs : List Char) : Option Numeral :=
  let (negative, rest) := splitSign cs
  magnitude? negative rest

/-- The nearest double.  Numbers above 10^310 are infinite and numbers below 10^-400 are zero
without any arithmetic on their digits. -/
def toFloat (n : Numeral) : Float :=
  let top := (Decimal.digitCount n.digits : Int) + n.exponent
  let magnitude : Float :=
    if n.digits = 0 ∨ top < -400 then 0
    else if 310 < top then 1.0 / 0.0
    else if n.exponent < 0 then Float.ofScientific n.digits true (-n.exponent).toNat
    else Float.ofScientific n.digits false n.exponent.toNat
  if n.negative then -magnitude else magnitude

end Numeral

/-- The value of a decimal literal, if the text is one. -/
def decimal? (cs : List Char) : Option Float :=
  (Numeral.ofChars? cs).map Numeral.toFloat

/-- The value of one of the words for infinity and NaN, after an optional sign, in capital or small
letters. -/
def special? (cs : List Char) : Option Float :=
  let (negative, rest) := Numeral.splitSign cs
  let word := rest.map Char.toLower
  if word = "infinity".toList ∨ word = "inf".toList then
    some (if negative then -1.0 / 0.0 else 1.0 / 0.0)
  else if word = "nan".toList then some (0.0 / 0.0)
  else none

/-- The double that a whole text is read as: a decimal literal, or one of the words. -/
def double? (cs : List Char) : Option Float :=
  (decimal? cs).or (special? cs)

end Estree
