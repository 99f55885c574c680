/-!
# Double-precision numbers

A double is kept as its 64 bits: a sign, an exponent of 11 bits and a fraction
of 52 bits. Two doubles are the same value when their bits agree; they are the
same number when they compare equal, so the two zeros are one number and NaN is
not the same number as anything.
-/

set_option autoImplicit false

namespace GraphQuery.Number

/-- A double by its bits. -/
structure Binary64 where
  bits : UInt64
  deriving DecidableEq

/-- A positive dyadic number `mantissa * 2 ^ exponent` among its neighbours of
the same format. `narrowBelow` holds when the neighbour below is half as far away
as the one above. -/
structure Magnitude where
  mantissa : Nat
  exponent : Int
  narrowBelow : Bool
  deriving DecidableEq

namespace Binary64

/-- Sign bit. -/
def isNegative (x : Binary64) : Bool := Nat.pow 2 63 ≤ x.bits.toNat

/-- Exponent field, below `2 ^ 11`. -/
def exponentField (x : Binary64) : Nat := x.bits.toNat / Nat.pow 2 52 % Nat.pow 2 11

/-- Fraction field, below `2 ^ 52`. -/
def fraction (x : Binary64) : Nat := x.bits.toNat % Nat.pow 2 52

/-- Neither an infinity nor NaN. -/
def isFinite (x : Binary64) : Bool := x.exponentField ≠ 2047

/-- NaN of any payload. -/
def isNaN (x : Binary64) : Bool := x.exponentField = 2047 ∧ x.fraction ≠ 0

/-- Either zero. -/
def isZero (x : Binary64) : Bool := x.exponentField = 0 ∧ x.fraction = 0

/-- Comparison as numbers. -/
def sameNumber (x y : Binary64) : Bool :=
  !x.isNaN && !y.isNaN && (x == y || x.isZero && y.isZero)

/-- Absolute value of a finite double. -/
def magnitude (x : Binary64) : Magnitude :=
  if x.exponentField = 0 then ⟨x.fraction, -1074, false⟩
  else
    ⟨Nat.pow 2 52 + x.fraction, x.exponentField - 1075,
      x.fraction = 0 ∧ 1 < x.exponentField⟩

/-- The double with the given fields. -/
def ofFields (negative : Bool) (exponentField fraction : Nat) : Binary64 :=
  let sign := if negative then Nat.pow 2 63 else 0
  ⟨UInt64.ofNat (sign + exponentField * Nat.pow 2 52 + fraction)⟩

/-- The double of the same value as a single-precision number given by its bits.
A subnormal single becomes a normal double: its leading bit moves to the hidden
place. -/
def ofBinary32 (single : UInt32) : Binary64 :=
  let negative := Nat.pow 2 31 ≤ single.toNat
  let exponent := single.toNat / Nat.pow 2 23 % Nat.pow 2 8
  let fraction := single.toNat % Nat.pow 2 23
  if exponent = 255 then ofFields negative 2047 (fraction * Nat.pow 2 29)
  else if exponent ≠ 0 then ofFields negative (exponent + 896) (fraction * Nat.pow 2 29)
  else if fraction = 0 then ofFields negative 0 0
  else
    -- the leading bit stands `23 - lead` places below the hidden one
    let lead := fraction.log2
    ofFields negative (lead + 874) (fraction * Nat.pow 2 (52 - lead) - Nat.pow 2 52)

end Binary64

/-- A double that is neither an infinity nor NaN. -/
structure FiniteDouble where
  value : Binary64
  finite : value.isFinite = true
  deriving DecidableEq

/-- The finite double of the same bits, if there is one. -/
def FiniteDouble.of? (x : Binary64) : Option FiniteDouble :=
  if h : x.isFinite = true then some ⟨x, h⟩ else none

end GraphQuery.Number
