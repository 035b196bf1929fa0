/-
Estree/Decimal/Binary.lean

Doubles as exact numbers.  A finite double is ± m · 2^q with natural m and integer q;
`Binary.ofFloat?` reads sign, m and q off the bits.  Everything that must be exact (decimal
text, remainders, wrapping to 32 bits) is done on m and q in integer arithmetic.  Powers of
naturals are `Nat.pow`, which names no algebraic structure.
-/

namespace Estree

/-- The exact value of a finite double: `mantissa · 2 ^ exponent`, negated if `negative`. -/
structure Binary where
  negative : Bool
  mantissa : Nat
  exponent : Int
deriving DecidableEq

namespace Binary

/-- The parts of a finite double; `none` for an infinity or NaN. -/
def ofFloat? (x : Float) : Option Binary :=
  let bits := x.toBits.toNat
  let negative := bits / Nat.pow 2 63 == 1
  let biased : Nat := bits / Nat.pow 2 52 % Nat.pow 2 11
  let fraction : Nat := bits % Nat.pow 2 52
  if biased = 2047 then none
  else if biased = 0 then some ⟨negative, fraction, -1074⟩
  else some ⟨negative, fraction + Nat.pow 2 52, (biased : Int) - 1075⟩

/-- Whether the double just below has half the distance of the one just above: so it is at the
powers of two, where the exponent changes. -/
def lowerNeighbourIsNear (b : Binary) : Bool :=
  b.mantissa == Nat.pow 2 52 && b.exponent != -1074

/-- The magnitude as a quotient of naturals. -/
def ratio (b : Binary) : Nat × Nat :=
  (b.mantissa * Nat.pow 2 b.exponent.toNat, Nat.pow 2 (-b.exponent).toNat)

/-- The integer part of the magnitude. -/
def floorAbs (b : Binary) : Nat :=
  let (num, den) := b.ratio
  num / den

/-- The integer part, toward zero, with its sign. -/
def truncate (b : Binary) : Int :=
  if b.negative then -(b.floorAbs : Int) else b.floorAbs

/-- Whether the value is an integer. -/
def isIntegral (b : Binary) : Bool :=
  let (num, den) := b.ratio
  num % den == 0

end Binary

/-! ### Integer parts and remainders of doubles -/

namespace Double

/-- The integer part, toward zero; infinities and NaN have none. -/
def truncate? (x : Float) : Option Int :=
  (Binary.ofFloat? x).map Binary.truncate

/-- Whether the double is an integer (infinities and NaN are not). -/
def isIntegral (x : Float) : Bool :=
  match Binary.ofFloat? x with
  | some b => b.isIntegral
  | none => false

/-- The integer part as a double; a negative fraction gives negative zero. -/
def trunc (x : Float) : Float :=
  if x < 0 then x.ceil else x.floor

/-- The integer part as a natural number, with negative numbers and NaN taken to 0 and
everything from `bound` on (infinity included) to `bound`. -/
def toNatUpTo (bound : Nat) (x : Float) : Nat :=
  match truncate? x with
  | some n => min n.toNat bound
  | none => if x > 0 then bound else 0

/-- The remainder of a division that rounds toward zero.  It has the sign of the dividend and
is exact: with both operands written over the smaller power of two, it is the remainder of
the mantissas. -/
def remainder (x y : Float) : Float :=
  match Binary.ofFloat? x, Binary.ofFloat? y with
  | some a, some b =>
    if b.mantissa = 0 then 0.0 / 0.0
    else
      let q := min a.exponent b.exponent
      let m := a.mantissa * Nat.pow 2 (a.exponent - q).toNat
      let n := b.mantissa * Nat.pow 2 (b.exponent - q).toNat
      let magnitude := (Float.ofNat (m % n)).scaleB q
      if a.negative then -magnitude else magnitude
  | some _, none => if y.isNaN then y else x
  | none, _ => 0.0 / 0.0

/-- The remainder modulo 2^32 of the integer part; 0 for infinities and NaN. -/
def wrap32 (x : Float) : Nat :=
  match truncate? x with
  | some n => (n % (Nat.pow 2 32 : Nat)).toNat
  | none => 0

/-- The same, read as a signed number of 32 bits. -/
def signed32 (x : Float) : Int :=
  let n := wrap32 x
  if n < Nat.pow 2 31 then n else (n : Int) - (Nat.pow 2 32 : Nat)

end Double

end Estree
