/-!
# Sets of code points

A set of code points is given by the ascending list of the points at which
membership changes. A code point belongs to the set when an odd number of
changes lies at or below it.
-/

set_option autoImplicit false

namespace GraphQuery.Text

/-- A set of code points. The first entry of `changes` begins the first run of
members, the second one ends it, and so on. -/
structure CodePoints where
  changes : List Nat

/-- Membership: the number of changes at or below the code point is odd. -/
def CodePoints.contains (s : CodePoints) (c : Char) : Bool :=
  s.changes.countP (· ≤ c.toNat) % 2 == 1

/-- The last code point of ASCII, the range in which each class below is spelt
out and the tables are not consulted. -/
def lastAscii : Nat := 0x7f

/-- Membership of ASCII is decided by `ascii`, all other membership by the set. -/
def CodePoints.containsBeyondAscii (s : CodePoints) (ascii : Char → Bool) (c : Char) : Bool :=
  if c.toNat ≤ lastAscii then ascii c else s.contains c

end GraphQuery.Text
