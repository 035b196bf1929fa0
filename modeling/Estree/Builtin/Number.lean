/-
Estree/Builtin/Number.lean

Numbers and texts: the members of numbers, `parseInt` and `parseFloat`, and the functions of
`Math`.

`parseInt` and `parseFloat` read as much from the front of a text as they can and leave the rest.
Digits in a base are added up in doubles, so that long numerals are rounded on the way.
-/
import Estree.Property
import Estree.Builtin.Text

namespace Estree

namespace Builtin

/-! ### Texts of numbers -/

/-- A digit of a base up to 36. -/
def digitChar (d : Nat) : Char :=
  if d < 10 then Char.ofNat ('0'.toNat + d) else Char.ofNat ('a'.toNat + (d - 10))

/-- The digits of a number in a base, in front of those already written. -/
def writeDigits (base : Nat) : Nat → Nat → List Char → List Char
  | 0, _, acc => acc
  | fuel + 1, n, acc =>
    let acc := digitChar (n % base) :: acc
    if n / base = 0 then acc else writeDigits base fuel (n / base) acc

/-- The integer part of a number in a base from 2 to 36.  Magnitudes from 2^64 on are written
as 2^64 - 1. -/
def radixText (x : Float) (base : Nat) : String :=
  match Binary.ofFloat? x with
  | none => numberText x
  | some b =>
    let n := min b.floorAbs (Nat.pow 2 64 - 1)
    signed (x < 0) (String.ofList (writeDigits base 64 n []))

/-- Whether a number can be the base of a numeral. -/
def radix? (x : Float) : Option Nat :=
  match Binary.ofFloat? x with
  | some b =>
    if b.isIntegral && 2 ≤ x && x ≤ 36 then some b.floorAbs else none
  | none => none

/-- The text of a number in a base given by a number. -/
def toRadix (x radix : Float) : Run Store String :=
  match radix? radix with
  | some base => pure (radixText x base)
  | none => Run.failWith (.rangeError "toString() radix must be between 2 and 36")

/-- The text of a number with a number of places; infinities and NaN have none. -/
def placesText (x : Float) (places : Nat) : String :=
  match Binary.ofFloat? x with
  | some b => fixedText places b
  | none => numberText x

/-- A member of numbers; any receiver counts as a number. -/
def callNumberMethod (method : NumberMethod) (this : Value) (args : List Value) :
    Run Store Value := do
  match method with
  | .toString =>
    let x ← Convert.number this
    match args[0]? with
    | none => return .str (numberText x)
    | some v =>
      let radix ← Convert.number v
      if radix == 10 then return .str (numberText x) else return .str (← toRadix x radix)
  | .toFixed =>
    let places ← firstNumber args
    if 0 ≤ places && places ≤ 100 then
      let x ← Convert.number this
      return .str (placesText x (Double.toNatUpTo 100 places))
    else Run.failWith (.rangeError "toFixed() digits argument must be between 0 and 100")

/-! ### Numbers in texts -/

/-- The number that the leading digits of a base denote, rounded after each digit; none if there
is no digit. -/
def leadingDigits (base : Nat) (cs : List Char) : Option Float :=
  match cs.map (digitOf? base) |>.takeWhile Option.isSome with
  | [] => none
  | ds => some (ds.foldl (fun n d => n * Float.ofNat base + Float.ofNat (d.getD 0)) 0)

/-- The text without the announcement of base 16, if it has one. -/
def withoutHexMark : List Char → Option (List Char)
  | '0' :: 'x' :: rest | '0' :: 'X' :: rest => some rest
  | _ => none

/-- The base to use and the text that is left: 0 means 16 after an announcement, else 10. -/
def parseBase (radix : Nat) (cs : List Char) : Option (Nat × List Char) :=
  if radix = 0 then
    match withoutHexMark cs with
    | some rest => some (16, rest)
    | none => some (10, cs)
  else if radix = 16 then some (16, (withoutHexMark cs).getD cs)
  else if 2 ≤ radix ∧ radix ≤ 36 then some (radix, cs)
  else none

/-- The integer that a text begins with. -/
def parseInt (text : String) (radix : Nat) : Float :=
  let (negative, rest) := Numeral.splitSign (Text.trimStart text.toList)
  match (parseBase radix rest).bind fun (base, digits) => leadingDigits base digits with
  | some x => (if negative then -1 else 1) * x
  | none => 0.0 / 0.0

/-- Whether a decimal literal may go on with a character, and then whether a point and an exponent
mark have been read.  A literal goes on with a digit, with a sign at its start or after the mark,
with one point before the mark, and with one mark that is not its first character. -/
def acceptLiteral (point mark : Bool) (last : Option Char) (c : Char) : Option (Bool × Bool) :=
  if c.isDigit then some (point, mark)
  else if c = '+' ∨ c = '-' then
    match last with
    | none => some (point, mark)
    | some l => if l = 'e' ∨ l = 'E' then some (point, mark) else none
  else if c = '.' ∧ !point ∧ !mark then some (true, mark)
  else if (c = 'e' ∨ c = 'E') ∧ !mark ∧ last.isSome then some (point, true)
  else none

/-- Read a text as long as a literal may go on.  `taken` is what has been read, backwards, and
`best` the value of its longest beginning that is read as a double. -/
def scanNumber (point mark : Bool) (taken : List Char) (best : Option Float) :
    List Char → Option Float
  | [] => best
  | c :: rest =>
    match acceptLiteral point mark taken.head? c with
    | some (point, mark) =>
      let taken := c :: taken
      scanNumber point mark taken ((double? taken.reverse).or best) rest
    | none => best

/-- The number that a text begins with. -/
def parseFloat (text : String) : Float :=
  let cs := Text.trimStart text.toList
  if "Infinity".toList.isPrefixOf cs || "+Infinity".toList.isPrefixOf cs then 1.0 / 0.0
  else if "-Infinity".toList.isPrefixOf cs then -1.0 / 0.0
  else (scanNumber false false [] none cs).getD (0.0 / 0.0)

/-! ### Mathematical functions -/

/-- A function on one number.  Halves are rounded toward positive infinity. -/
def mathFunction (f : MathFunction) (x : Float) : Float :=
  match f with
  | .abs => x.abs
  | .floor => x.floor
  | .ceil => x.ceil
  | .sqrt => x.sqrt
  | .trunc => Double.trunc x
  | .sign => if x == 0 || x.isNaN then x else if x > 0 then 1 else -1
  | .round => (x + 0.5).floor

/-- The greater of two numbers; of two equal ones (zeros of either sign) the second. -/
def greater (a b : Float) : Float :=
  if a ≤ b then b else a

/-- The smaller of two numbers; of two equal ones (zeros of either sign) the second. -/
def smaller (a b : Float) : Float :=
  if b ≤ a then b else a

/-- Combine the numbers of all arguments; one NaN makes the result NaN. -/
def foldNumbers (start : Float) (pick : Float → Float → Float) (args : List Value) :
    Run Store Value := do
  let numbers ← args.mapM Convert.number
  return .num (numbers.foldl
    (fun acc x => if acc.isNaN || x.isNaN then 0.0 / 0.0 else pick acc x) start)

end Builtin

end Estree
