import Stencil.Number.Digits
import Stencil.Number.Shortest

/-!
The text of a double.

A finite double is written with the digits of its shortest decimal, either
positionally or with an exponent. A `Layout` says which leading exponents are
written positionally, whether a whole number keeps `.0`, and which way ties
between two shortest decimals go. `Layout.plain` is the text of numbers in
output: it has no exponent and no `.0`, so `2` is written for two.
-/

namespace Stencil

/-- The conventions of one text form of doubles. -/
structure Layout where
  /-- The leading exponents that are written without an exponent. -/
  positional : Int → Bool
  /-- A whole number written positionally ends in `.0`. -/
  pointZero : Bool
  /-- The choice between two shortest decimals at equal distance. -/
  tie : Tie

namespace Layout

/-- Digits without an exponent: the point stands `-exponent` places from the end,
and zeros fill up to it on either side. -/
def writePositional (pointZero : Bool) (ds : List Char) (exponent : Int) : List Char :=
  let places := (-exponent).toNat
  if places = 0 then
    ds ++ List.replicate exponent.toNat '0' ++ (if pointZero then ['.', '0'] else [])
  else if places < ds.length then
    ds.take (ds.length - places) ++ '.' :: ds.drop (ds.length - places)
  else
    '0' :: '.' :: List.replicate (places - ds.length) '0' ++ ds

/-- Digits with the point after the first one, and a signed exponent. -/
def writeScientific (ds : List Char) (leading : Int) : List Char :=
  ds.take 1 ++ (if ds.length = 1 then [] else '.' :: ds.drop 1) ++
    'e' :: (if leading < 0 then '-' else '+') :: Digits.ofNat leading.natAbs

/-- The text of a decimal. The leading exponent is that of its first digit. -/
def writeDecimal (layout : Layout) (decimal : Decimal) : List Char :=
  let ds := Digits.ofNat decimal.digits
  let leading := ds.length - 1 + decimal.exponent
  if layout.positional leading then
    writePositional layout.pointZero ds decimal.exponent
  else
    writeScientific ds leading

/-- The text of a finite double: a sign if it has one, also before zero, and its
shortest decimal. -/
def write (layout : Layout) (d : FiniteDouble) : String :=
  String.ofList ((if d.negative then ['-'] else []) ++
    layout.writeDecimal (shortest layout.tie d.units))

/-- The text of numbers in output: positional throughout, whole numbers without a
point, ties away from zero. -/
def plain : Layout :=
  ⟨fun _ => true, false, .above⟩

end Layout

/-- The text of a double in output. -/
def Double.display : Double → String
  | .nan => "NaN"
  | .infinite negative => if negative then "-inf" else "inf"
  | .finite value => Layout.plain.write value

end Stencil
