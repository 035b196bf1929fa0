/-
Estree/Decimal/Layout.lean

The texts of a double.  Four of them are needed, all made from the shortest digits or from
the exact value:

* `numberText`: positional for magnitudes from 10^-6 up to 10^21, else with an exponent;
* `plainText`: always positional;
* `jsonText`: positional for exponents from -5 to 15, with `.0` kept, else with an exponent;
* `fixedText`: a given number of places.
-/
import Estree.Decimal.Shortest

namespace Estree

namespace Decimal

/-- The decimal digits of a natural number. -/
def digitsText (n : Nat) : String :=
  String.ofList (Nat.toDigits 10 n)

/-- The exponent of the leading digit. -/
def leading (d : Decimal) : Int :=
  (digitCount d.digits : Int) - 1 + d.exponent

/-- Digits with a point and no exponent; no point if the value is an integer. -/
def positional (d : Decimal) : String :=
  let text := digitsText d.digits
  if 0 ≤ d.exponent then text ++ String.ofList (List.replicate d.exponent.toNat '0')
  else
    let places := (-d.exponent).toNat
    let cs := text.toList
    -- zeros in front, so that at least one digit stands before the point
    let padded := List.replicate (places + 1 - cs.length) '0' ++ cs
    let whole := padded.length - places
    String.ofList (padded.take whole) ++ "." ++ String.ofList (padded.drop whole)

/-- One digit before the point, the exponent always with its sign. -/
def scientific (d : Decimal) : String :=
  let e := d.leading
  let mark := if e < 0 then "e-" else "e+"
  let mantissa :=
    match (digitsText d.digits).toList with
    | [] => ""
    | [c] => String.ofList [c]
    | c :: rest => String.ofList [c] ++ "." ++ String.ofList rest
  mantissa ++ mark ++ digitsText e.natAbs

end Decimal

/-- The sign of a text. -/
def signed (negative : Bool) (text : String) : String :=
  if negative then "-" ++ text else text

/-- The text of a number as a program sees it: `NaN`, `Infinity`, and zero without its sign. -/
def numberText (x : Float) : String :=
  match Binary.ofFloat? x with
  | none => if x.isNaN then "NaN" else if x > 0 then "Infinity" else "-Infinity"
  | some b =>
    let d := Decimal.shortest .up b
    if b.mantissa = 0 then "0"
    else
      let e := d.leading
      signed b.negative (if -6 ≤ e ∧ e < 21 then d.positional else d.scientific)

/-- The same, except that negative zero keeps its sign. -/
def signedNumberText (x : Float) : String :=
  match Binary.ofFloat? x with
  | some ⟨true, 0, _⟩ => "-0"
  | _ => numberText x

/-- The text of a number without an exponent, whatever its size; zero keeps its sign. -/
def plainText (x : Float) : String :=
  match Binary.ofFloat? x with
  | none => if x.isNaN then "NaN" else if x > 0 then "inf" else "-inf"
  | some b => signed b.negative (Decimal.shortest .up b).positional

/-- The text of a fractional or very large number in a JSON document. -/
def jsonText (b : Binary) : String :=
  let d := Decimal.shortest .toEven b
  let e := d.leading
  let text :=
    if b.mantissa = 0 then "0.0"
    else if -5 ≤ e ∧ e < 16 then
      if 0 ≤ d.exponent then d.positional ++ ".0" else d.positional
    else d.scientific
  signed b.negative text

/-- The exact value rounded to a number of places, a half going to the even neighbour.  The
sign is kept even if only zeros are left. -/
def fixedText (places : Nat) (b : Binary) : String :=
  let (num, den) := b.ratio
  let scaled := roundQuotient .toEven (num * Nat.pow 10 places) den
  let cs := (Decimal.digitsText scaled).toList
  let padded := List.replicate (places + 1 - cs.length) '0' ++ cs
  let whole := padded.length - places
  let text :=
    if places = 0 then String.ofList padded
    else String.ofList (padded.take whole) ++ "." ++ String.ofList (padded.drop whole)
  signed b.negative text

end Estree
