import GraphQuery.Number.Shortest

/-!
# Styles of writing a double

A double is written with its shortest digits, positionally when its leading
digit stands at a middling power of ten and with an exponent otherwise. A style
fixes the powers, the look of the exponent and the tie between equally close
digits. `queryStyle` writes literals of the query language, `jsonStyle` numbers
of JSON.
-/

set_option autoImplicit false

namespace GraphQuery.Number

/-- Decisions of a number format. -/
structure Style where
  /-- Least power of ten of the leading digit that is written positionally. -/
  leastPositional : Int
  /-- Greatest power of ten of the leading digit that is written positionally. -/
  greatestPositional : Int
  /-- Whether an exponent above zero carries a plus sign. -/
  plusSign : Bool
  tie : Tie

/-- Literals of the query language: `0.0001`, `5e-5`, `1e16`. -/
def queryStyle : Style := ⟨-4, 15, false, .up⟩

/-- Numbers of JSON: `0.00005`, `5e-6`, `1e+16`. -/
def jsonStyle : Style := ⟨-5, 15, true, .even⟩

namespace Decimal

/-- Positional form, with at least one digit on each side of the point. -/
def positional (d : Decimal) : List Char :=
  if d.point ≤ 0 then
    ['0', '.'] ++ List.replicate (-d.point).toNat '0' ++ d.digits
  else
    let whole := d.point.toNat
    let missing := whole - d.digits.length
    let rest := d.digits.drop whole
    d.digits.take whole ++ List.replicate missing '0' ++ '.' ::
      (if rest.isEmpty then ['0'] else rest)

/-- Exponent form, with a point only between digits. -/
def withExponent (d : Decimal) (plusSign : Bool) : List Char :=
  let e := d.point - 1
  let sign := if e < 0 then ['-'] else if plusSign then ['+'] else []
  let mantissa :=
    match d.digits with
    | first :: second :: rest => first :: '.' :: second :: rest
    | short => short
  mantissa ++ 'e' :: sign ++ Number.digits e.natAbs

/-- The form that the style asks for. -/
def write (d : Decimal) (style : Style) : List Char :=
  let e := d.point - 1
  if style.leastPositional ≤ e ∧ e ≤ style.greatestPositional then d.positional
  else d.withExponent style.plusSign

end Decimal

namespace Binary64

/-- A finite double in the given style. Zero keeps its sign. -/
def write (x : Binary64) (style : Style) : String :=
  let digits :=
    if x.isZero then ['0', '.', '0'] else (x.magnitude.shortest style.tie).write style
  String.ofList (if x.isNegative then '-' :: digits else digits)

/-- Any double as the query language spells it. The values that are not finite
have a spelling but no literal form. -/
def text (x : Binary64) : String :=
  if x.isFinite then x.write queryStyle
  else if x.isNaN then "NaN"
  else if x.isNegative then "-inf"
  else "inf"

end Binary64

end GraphQuery.Number
