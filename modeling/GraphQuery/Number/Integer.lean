/-!
# Decimal integers

Whole numbers in decimal digits, without leading zeros, negative ones behind a
minus sign.
-/

set_option autoImplicit false

namespace GraphQuery.Number

/-- Decimal digits of a natural number. -/
def digits (n : Nat) : List Char := Nat.toDigits 10 n

/-- Text of a natural number. -/
def naturalText (n : Nat) : String := String.ofList (digits n)

/-- Decimal digits of an integer, with its sign. -/
def signedDigits : Int → List Char
  | .ofNat n => digits n
  | .negSucc n => '-' :: digits (n + 1)

/-- Text of an integer. -/
def integerText (n : Int) : String := String.ofList (signedDigits n)

end GraphQuery.Number
