import Stencil.Number.Numeral
import Stencil.Value.Basic

/-!
The numbers of JSON text.

The grammar is narrower than that of numerals. A number without point and exponent
that is in range (`Number.isInRange`) is an integer, except `-0`; every other
number is a double. Doubles are read in two steps. The leading digits, as many as stay
below `2 ^ 64`, make the significand (`significand`); then the significand and
the power of ten are each rounded to a double, and their product or quotient is
rounded once more. The last bit may therefore differ from that of the nearest
double. Numbers beyond the finite doubles are refused.
-/

namespace Stencil

/-! ### Products and quotients -/

/-- The double nearest to a product. -/
def FiniteDouble.times (a b : FiniteDouble) : Double :=
  .ofUnits (a.negative != b.negative) (a.units * b.units) (Nat.pow 2 1074)

/-- The double nearest to a quotient. -/
def FiniteDouble.over (a b : FiniteDouble) : Double :=
  .ofUnits (a.negative != b.negative) (a.units * Nat.pow 2 1074) b.units

namespace Json

/-! ### Grammar -/

/-- The JSON grammar of numbers, on top of that of numerals: no plus sign, at
least one digit before the point and after it, and no leading zeros. -/
def isNumber (cs : List Char) : Bool :=
  let unsigned := match cs with
    | '-' :: rest => rest
    | cs => cs
  let whole := Numeral.digits unsigned
  let pointed := match Numeral.afterDigits unsigned with
    | '.' :: rest => Numeral.digits rest != []
    | _ => true
  whole != [] && (whole.length == 1 || whole.head? != some '0') && pointed

/-! ### Doubles -/

/-- The significand after the digits that follow it, as long as it stays below
`2 ^ 64`, and the digits that are left. -/
def extend (significand : Nat) : List Char → Nat × List Char
  | [] => (significand, [])
  | c :: cs =>
    let longer := Nat.ofDigitChars 10 [c] significand
    if longer ≤ 18446744073709551615 then extend longer cs else (significand, c :: cs)

/-- The significand of a numeral, and the power of ten that goes with it. Digits
before the point that are left out count as zeros; digits after it follow those
that were taken, and what is left of them is dropped. -/
def significand (written : Numeral.Written) : Nat × Int :=
  let (whole, zeros) := extend 0 written.whole
  let (all, dropped) := extend whole written.part
  (all, written.exponent + zeros.length + dropped.length - written.part.length)

example : significand ⟨false, "184467440737095516169".toList, "04".toList, 0⟩ =
    (18446744073709551610, 1) := by
  decide

/-- The largest power of ten that is a finite double. -/
def maxPower : Nat :=
  308

/-- The double nearest to a power of ten. -/
def tenTo? (n : Nat) : Option FiniteDouble :=
  (Double.ofRatio false (Nat.pow 10 n) 1).finite?

/-- Divides by the largest power of ten a number of times. -/
def shrink : Nat → FiniteDouble → Option FiniteDouble
  | 0, d => some d
  | times + 1, d => do
    let smaller ← (d.over (← tenTo? maxPower)).finite?
    shrink times smaller

/-- A double times `10 ^ n`. Only zero can be multiplied by a power of ten that is no
finite double. -/
def scaleUp (d : FiniteDouble) (n : Nat) : Option FiniteDouble :=
  if n ≤ maxPower then do
    (d.times (← tenTo? n)).finite?
  else
    if d.units = 0 then some d else none

/-- A double divided by `10 ^ (n + 1)`. Large powers of ten are divided by in parts;
three parts leave nothing of what is below `2 ^ 64`. -/
def scaleDown (d : FiniteDouble) (n : Nat) : Option FiniteDouble := do
  let parts := n / maxPower
  let smaller ← shrink (min parts 3) d
  (smaller.over (← tenTo? (n - maxPower * parts + 1))).finite?

/-- The double that a numeral is read as. -/
def toDouble? (written : Numeral.Written) : Option FiniteDouble := do
  let (digits, power) := significand written
  let rounded ← (Double.ofRatio written.negative digits 1).finite?
  match power with
  | .ofNat n => scaleUp rounded n
  | .negSucc n => scaleDown rounded n

/-- The number that a word denotes. -/
def number? (cs : List Char) : Option Number :=
  if isNumber cs then
    (Numeral.written? cs).bind fun written =>
      let magnitude : Int := Digits.toNat written.whole
      let n := if written.negative then -magnitude else magnitude
      if cs.all (fun c => c == '-' || c.isDigit) && Number.isInRange n &&
          !(written.negative && n == 0) then
        some (.int n)
      else
        (toDouble? written).map .double
  else
    none

end Json

end Stencil
