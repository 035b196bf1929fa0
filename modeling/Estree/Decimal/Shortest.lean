/-
Estree/Decimal/Shortest.lean

The shortest decimal that reads back as a given double, and among the shortest the
nearest to it.

The reals that round to m · 2^q form an interval around it; its ends belong to it exactly
when m is even.  On the grid of decimals with n significant digits only the two neighbours
of the value itself can lie in that interval, so it is enough to test these two for
n = 1, 2, …; seventeen digits always suffice.  All comparisons are of natural numbers.
-/
import Estree.Decimal.Binary

namespace Estree

/-- A decimal number `digits · 10 ^ exponent`. -/
structure Decimal where
  digits : Nat
  exponent : Int
deriving DecidableEq

/-- What to do when two decimals are equally near. -/
inductive Tie where
  | up | toEven
deriving DecidableEq

/-- Of the two neighbours `low` and `low + 1` of a value halfway between them, the one that a
tie goes to. -/
def Tie.pick (tie : Tie) (low : Nat) : Nat :=
  match tie with
  | .up => low + 1
  | .toEven => if low % 2 = 0 then low else low + 1

/-- `num / den` to the nearest integer. -/
def roundQuotient (tie : Tie) (num den : Nat) : Nat :=
  let low := num / den
  let twice := 2 * (num % den)
  if twice < den then low else if twice = den then tie.pick low else low + 1

namespace Decimal

/-- Move factors of ten from the digits to the exponent. -/
def strip : Nat → Decimal → Decimal
  | 0, d => d
  | fuel + 1, d =>
    if d.digits ≠ 0 ∧ d.digits % 10 = 0 then strip fuel ⟨d.digits / 10, d.exponent + 1⟩
    else d

/-- The number of decimal digits of a natural number, 0 for 0. -/
def digitCount (n : Nat) : Nat :=
  if n = 0 then 0 else (Nat.toDigits 10 n).length

/-- The exponent `e` with `10 ^ e ≤ num / den < 10 ^ (e + 1)`, for a positive quotient: for a
quotient of at least 1 it is counted off the integer part, else off the integer part of a
large enough decimal multiple. -/
def magnitude (num den : Nat) : Int :=
  if den ≤ num then (digitCount (num / den) : Int) - 1
  else
    let shift := digitCount den - digitCount num + 1
    (digitCount (num * Nat.pow 10 shift / den) : Int) - 1 - shift

/-- The interval of reals that round to a positive double, in quarters of its last place:
the value is `4 * m` of them. -/
structure Interval where
  low : Nat
  mid : Nat
  high : Nat
  closed : Bool

/-- The rounding interval of `m · 2 ^ q`. -/
def interval (b : Binary) : Interval :=
  { low := 4 * b.mantissa - (if b.lowerNeighbourIsNear then 1 else 2)
    mid := 4 * b.mantissa
    high := 4 * b.mantissa + 2
    closed := b.mantissa % 2 == 0 }

/-- Whether a quotient of naturals lies in the interval whose ends are quotients over 1. -/
def Interval.holds (i : Interval) (num den : Nat) : Bool :=
  if i.closed then i.low * den ≤ num && num ≤ i.high * den
  else i.low * den < num && num < i.high * den

/-- The search on the grids of `n`, `n + 1`, … significant digits.  A point `k` of the grid
with step `10 ^ g` is, in quarters of the last place, `k · 10 ^ g · 4 · 2 ^ -q`; `fuel` grids
are tried. -/
def search (tie : Tie) (b : Binary) (top : Int) : Nat → Nat → Decimal
  | 0, n => ⟨b.mantissa, n⟩
  | fuel + 1, n =>
    let i := interval b
    let g := top - n + 1
    -- one step of the grid as a quotient, in quarters of the last place
    let stepNum := Nat.pow 10 g.toNat * 4 * Nat.pow 2 (-b.exponent).toNat
    let stepDen := Nat.pow 10 (-g).toNat * Nat.pow 2 b.exponent.toNat
    let below := i.mid * stepDen / stepNum
    let lowHit := below ≠ 0 ∧ i.holds (below * stepNum) stepDen
    let highHit := i.holds ((below + 1) * stepNum) stepDen
    if lowHit then
      if highHit then ⟨roundQuotient tie (i.mid * stepDen) stepNum, g⟩ else ⟨below, g⟩
    else if highHit then ⟨below + 1, g⟩
    else search tie b top fuel (n + 1)

/-- The fewest digits that read back as a positive double; of several such decimals the
nearest, and of two equally near ones the one that `tie` picks. -/
def shortest (tie : Tie) (b : Binary) : Decimal :=
  if b.mantissa = 0 then ⟨0, 0⟩
  else
    let (num, den) := b.ratio
    strip 20 (search tie b (magnitude num den) 17 1)

end Decimal

end Estree
