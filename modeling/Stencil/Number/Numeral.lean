import Stencil.Number.Digits
import Stencil.Number.Double
import Stencil.Text

/-!
Decimal numerals.

A numeral is an optional sign, digits with at most one point among or beside
them and at least one digit in all, and an optional exponent: `e` or `E`, an
optional sign and at least one digit. `Numeral.read?` reads a text that is a
numeral from end to end, `Numeral.toDouble` rounds it once, and
`FiniteDouble.ofText?` is how texts count as numbers: blanks around the numeral
are allowed, and numerals beyond the finite doubles are refused.
-/

namespace Stencil

/-- The number `mantissa * 10 ^ exponent` with a sign. Zero keeps its sign. -/
structure Numeral where
  negative : Bool
  mantissa : Nat
  exponent : Int
  deriving DecidableEq, Repr

namespace Numeral

/-! ### Reading -/

/-- An optional sign, and what follows it. -/
def sign : List Char → Bool × List Char
  | '-' :: rest => (true, rest)
  | '+' :: rest => (false, rest)
  | cs => (false, cs)

/-- The digits at the front. -/
def digits (cs : List Char) : List Char :=
  cs.takeWhile Char.isDigit

/-- What follows the digits at the front. -/
def afterDigits (cs : List Char) : List Char :=
  cs.dropWhile Char.isDigit

/-- The digits after a point, and what follows them; without a point there are
none. -/
def fraction : List Char → List Char × List Char
  | '.' :: rest => (digits rest, afterDigits rest)
  | cs => ([], cs)

/-- The exponent that a text states. The empty text states zero. -/
def exponent? : List Char → Option Int
  | [] => some 0
  | c :: rest =>
    let (negative, ds) := sign rest
    if (c = 'e' ∨ c = 'E') ∧ ds ≠ [] ∧ ds.all Char.isDigit then
      some (if negative then -(Digits.toNat ds : Int) else Digits.toNat ds)
    else
      none

/-- A numeral as it is written: the digits before the point and after it, and the
exponent. -/
structure Written where
  negative : Bool
  whole : List Char
  part : List Char
  exponent : Int

/-- The number that is written. -/
def Written.numeral (written : Written) : Numeral :=
  ⟨written.negative, Digits.toNat (written.whole ++ written.part),
    written.exponent - written.part.length⟩

/-- The written numeral that the whole text is. -/
def written? (cs : List Char) : Option Written :=
  let (negative, unsigned) := sign cs
  let whole := digits unsigned
  let (part, rest) := fraction (afterDigits unsigned)
  if whole ++ part = [] then
    none
  else
    (exponent? rest).map fun exponent => ⟨negative, whole, part, exponent⟩

/-- The numeral that the whole text is. -/
def read? (cs : List Char) : Option Numeral :=
  (written? cs).map Written.numeral

example : read? "-12.50e3".toList = some ⟨true, 1250, 1⟩ := by decide
example : read? "5.".toList = some ⟨false, 5, 0⟩ ∧ read? "+.5E-1".toList = some ⟨false, 5, -2⟩ := by
  decide
example : read? ".".toList = none ∧ read? "1e".toList = none ∧ read? "1_0".toList = none := by
  decide

/-! ### Rounding -/

/-- The double nearest to a numeral, ties to even. Numerals that are out of
reach in either direction are settled by their size, before any power of ten is
formed: the first bound exceeds `10 ^ 400`, the second lies below half a unit. -/
def toDouble (n : Numeral) : Double :=
  if n.mantissa = 0 then
    .finite (.zero n.negative)
  else if 400 < n.exponent then
    .infinite n.negative
  else if n.mantissa.log2 + 3 * n.exponent < -1100 then
    .finite (.zero n.negative)
  else
    .ofRatio n.negative (n.mantissa * Nat.pow 10 n.exponent.toNat)
      (Nat.pow 10 (-n.exponent).toNat)

end Numeral

/-- The finite double that a text denotes, if it is a numeral between blanks. -/
def FiniteDouble.ofText? (text : String) : Option FiniteDouble :=
  (Numeral.read? (Text.trim text.toList)).bind fun numeral => numeral.toDouble.finite?

end Stencil
