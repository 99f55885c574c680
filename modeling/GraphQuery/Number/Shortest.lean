import GraphQuery.Number.Binary64
import GraphQuery.Number.Integer

/-!
# Shortest decimals

A decimal reads back as a magnitude when it lies in the magnitude's rounding
interval: between the midpoints to its two neighbours, the midpoints included
when the mantissa is even. The shortest decimal is the one with the fewest
digits that reads back, and of those the closest to the magnitude. It is found
by exact arithmetic on the grids of one digit, two digits and so on: if any
point of a grid reads back, so does one of the two points around the magnitude.
-/

set_option autoImplicit false

namespace GraphQuery.Number

/-- Which of two decimals, equally close, is taken. -/
inductive Tie where
  | up
  | even
  deriving DecidableEq

/-- A positive decimal. The digits stand behind the point; `point` counts the
places by which the point then moves to the right. -/
structure Decimal where
  digits : List Char
  point : Int
  deriving DecidableEq

/-- The decimal `n * 10 ^ unit`, without trailing zeros. -/
def Decimal.ofNat (n : Nat) (unit : Int) : Decimal :=
  let ds := Number.digits n
  ⟨(ds.reverse.dropWhile (· == '0')).reverse, unit + ds.length⟩

namespace Magnitude

/-- Numerator of the magnitude as a fraction. -/
def num (g : Magnitude) : Nat := g.mantissa * Nat.pow 2 g.exponent.toNat

/-- Denominator of the magnitude as a fraction. -/
def den (g : Magnitude) : Nat := Nat.pow 2 (-g.exponent).toNat

/-- The exponent `k` with `10 ^ (k - 1) ≤ g < 10 ^ k`. -/
def decade (g : Magnitude) : Int :=
  if g.den ≤ g.num then (Number.digits (g.num / g.den)).length
  -- the least `j` with `g.den ≤ g.num * 10 ^ j` is the number of digits of this quotient
  else 1 - (Number.digits ((g.den - 1) / g.num)).length

/-- The magnitude in units of `10 ^ unit`, as a fraction. -/
def inUnits (g : Magnitude) (unit : Int) : Nat × Nat :=
  (g.num * Nat.pow 10 (-unit).toNat, g.den * Nat.pow 10 unit.toNat)

/-- Whether `n` units read back as the magnitude, which is `a / b` units. -/
def readsBack (g : Magnitude) (a b n : Nat) : Bool :=
  -- half the gap to a neighbour is the magnitude divided by twice or four times the mantissa
  let excess :=
    if n * b ≤ a then (if g.narrowBelow then 4 else 2) * g.mantissa * (a - n * b)
    else 2 * g.mantissa * (n * b - a)
  if g.mantissa % 2 = 0 then excess ≤ a else excess < a

/-- The closest multiple of the unit that reads back, if any does. -/
def onGrid? (g : Magnitude) (tie : Tie) (unit : Int) : Option Nat :=
  let a := (g.inUnits unit).1
  let b := (g.inUnits unit).2
  let below := a / b
  match g.readsBack a b below, g.readsBack a b (below + 1) with
  | false, false => none
  | true, false => some below
  | false, true => some (below + 1)
  | true, true =>
      match compare (a - below * b) ((below + 1) * b - a), tie with
      | .lt, _ => some below
      | .gt, _ => some (below + 1)
      | .eq, .up => some (below + 1)
      | .eq, .even => some (below + below % 2)

/-- The decimal equal to the magnitude. -/
def exactDecimal (g : Magnitude) : Decimal :=
  let places := (-g.exponent).toNat
  Decimal.ofNat (g.num * Nat.pow 5 places) (-places)

/-- The closest decimal of the given number of digits that reads back, if any does. -/
def withDigits? (g : Magnitude) (tie : Tie) (count : Nat) : Option Decimal :=
  (g.onGrid? tie (g.decade - count)).map (Decimal.ofNat · (g.decade - count))

/-- The shortest decimal. Seventeen digits are enough for every double, so the
exact decimal is not needed for one. -/
def shortest (g : Magnitude) (tie : Tie) : Decimal :=
  ((List.range' 1 17).findSome? (g.withDigits? tie)).getD g.exactDecimal

end Magnitude

end GraphQuery.Number
