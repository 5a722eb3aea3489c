import Stencil.Number.Layout
import Stencil.Number.Numeral

/-!
Scalars, the values of declared variables.

A declared text counts as a number when it is a numeral between blanks whose
value is finite; any other text is kept as it stands.
-/

namespace Stencil

/-- The value of a declared variable. -/
inductive Scalar where
  | number (d : Double)
  | text (s : String)
  deriving DecidableEq

namespace Scalar

/-- The scalar that a declared text denotes. -/
def parse (raw : String) : Scalar :=
  match FiniteDouble.ofText? raw with
  | some d => .number (.finite d)
  | none => .text raw

/-- The text of a scalar in output. -/
def display : Scalar → String
  | .number d => d.display
  | .text s => s

end Scalar

end Stencil
