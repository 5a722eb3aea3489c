import Stencil.Number.Numeral
import Stencil.Value.Basic

/-!
The plain scalars of YAML.

A scalar that stands without quotes is read by its text. Null and the truth
values have a few spellings each; integers are decimal, hexadecimal, octal or
binary; numerals are doubles, rounded once; everything else is the text itself.
Digits with a leading zero are text, and what is infinite or no number is null.
Integers that are beyond those of values are refused, unless they are so large
that they count as doubles.
-/

namespace Stencil.Yaml

/-! ### Integers -/

/-- The magnitude that digits denote. A letter behind a zero names the base, and
otherwise there is no leading zero. -/
def magnitude? : List Char → Option Nat
  | '0' :: 'x' :: ds => Digits.inBase? 16 ds
  | '0' :: 'o' :: ds => Digits.inBase? 8 ds
  | '0' :: 'b' :: ds => Digits.inBase? 2 ds
  | '0' :: _ :: _ => none
  | ds => Digits.inBase? 10 ds

/-- The integer that a text denotes, with an optional sign. -/
def integer? (text : List Char) : Option Int :=
  let (negative, unsigned) := Numeral.sign text
  (magnitude? unsigned).map fun n => if negative then -(n : Int) else n

/-- The integers of 128 bits, from `-2 ^ 127` to `2 ^ 128 - 1`. -/
def isWide (n : Int) : Bool :=
  -(Nat.pow 2 127 : Int) ≤ n && n < (Nat.pow 2 128 : Int)

/-! ### Scalars -/

/-- The text is one of several words. -/
def isOneOf (words : List String) (text : List Char) : Bool :=
  words.contains (String.ofList text)

/-- The text names an infinity, perhaps with a sign, or what is not a number. -/
def isNotFinite (text : List Char) : Bool :=
  isOneOf [".inf", ".Inf", ".INF"] (Numeral.sign text).2 ||
    isOneOf [".nan", ".NaN", ".NAN"] text

/-- The text is digits that begin with a zero, and not the zero alone. -/
def isPadded (text : List Char) : Bool :=
  match (Numeral.sign text).2 with
  | '0' :: d :: ds => (d :: ds).all Char.isDigit
  | _ => false

/-- A scalar that is no integer: a double, or the text itself. -/
def doubleOrText (text : List Char) : Value :=
  if isNotFinite text then
    .null
  else
    match (Numeral.read? text).bind fun numeral => numeral.toDouble.finite? with
    | some d => if isPadded text then .string (String.ofList text) else .number (.double d)
    | none => .string (String.ofList text)

/-- The value of a plain scalar. -/
def scalar? (text : List Char) : Option Value :=
  if isOneOf ["~", "null", "Null", "NULL"] text then
    some .null
  else if isOneOf ["true", "True", "TRUE"] text then
    some (.bool true)
  else if isOneOf ["false", "False", "FALSE"] text then
    some (.bool false)
  else
    match integer? text with
    | some n =>
      if Number.isInRange n then
        some (.number (.int n))
      else if isWide n then
        none
      else
        some (doubleOrText text)
    | none => some (doubleOrText text)

example : integer? "+0x1f".toList = some 31 ∧ integer? "-0b101".toList = some (-5) ∧
    integer? "-0".toList = some 0 ∧ integer? "007".toList = none ∧
    integer? "0X1F".toList = none ∧ integer? "0o8".toList = none := by
  decide +kernel

end Stencil.Yaml
