import Stencil.Scalar
import Stencil.Value.Basic

/-!
Operands of conditions, and how they are coerced.

An operand comes from a declared variable, from the context, or from the text of
the condition itself. Where it comes from does not matter to an operator:
`Operand.primitive` forgets it, and truth, numeric value and loose equality are
defined on what is left.
-/

namespace Stencil

/-- What an operand of a condition stands for. -/
inductive Operand where
  /-- Nothing has this name. -/
  | undefined
  | context (value : Value)
  | variable (scalar : Scalar)
  /-- A numeral in the condition. -/
  | number (d : Double)
  /-- The keyword `true` or `false`. -/
  | bool (b : Bool)
  /-- The keyword `null`. -/
  | null
  /-- Text in the condition. -/
  | text (s : String)

/-- An operand without its origin. Arrays and objects are composite. -/
inductive Primitive where
  | undefined
  | null
  | bool (b : Bool)
  | number (d : Double)
  | text (s : String)
  | composite (value : Value)

namespace Primitive

/-- Nothing at all, or null. -/
def isAbsent : Primitive → Bool
  | .undefined | .null => true
  | _ => false

/-- Absent operands, false, zero, `nan` and the empty text are false; all else is
true. -/
def isTruthy : Primitive → Bool
  | .undefined | .null => false
  | .bool b => b
  | .number d => !d.isZero && !d.isNaN
  | .text s => s != ""
  | .composite _ => true

/-- The number that an operand counts as. Null and blank texts count as zero,
truth values as zero and one; undefined, composite and `nan` operands, and texts
that are no numerals, have no number. -/
def toNumber? : Primitive → Option Double
  | .undefined | .composite _ => none
  | .null => some (.ofInt 0)
  | .bool b => some (.ofInt (if b then 1 else 0))
  | .number d => if d.isNaN then none else some d
  | .text s =>
    if Text.trim s.toList = [] then
      some (.ofInt 0)
    else
      (FiniteDouble.ofText? s).map .finite

/-- Numeric equality of two operands that have numbers. -/
def sameNumber (a b : Primitive) : Bool :=
  match a.toNumber?, b.toNumber? with
  | some a, some b => a.equals b
  | _, _ => false

/-- Loose equality. Absent operands equal each other and nothing else. Texts are
compared exactly, and composites by structure and with each other only. All
other pairs are compared as numbers. -/
def looseEq : Primitive → Primitive → Bool
  | .text a, .text b => a == b
  | .composite a, .composite b => a.sameAs b
  | .composite _, _ | _, .composite _ => false
  | a, b => if a.isAbsent || b.isAbsent then a.isAbsent && b.isAbsent else sameNumber a b

end Primitive

namespace Operand

/-- The operand without its origin. -/
def primitive : Operand → Primitive
  | .undefined => .undefined
  | .null => .null
  | .bool b => .bool b
  | .number d => .number d
  | .text s => .text s
  | .variable (.number d) => .number d
  | .variable (.text s) => .text s
  | .context .null => .null
  | .context (.bool b) => .bool b
  | .context (.number n) => .number n.toDouble
  | .context (.string s) => .text s
  | .context (.array items) => .composite (.array items)
  | .context (.object fields) => .composite (.object fields)

def isTruthy (operand : Operand) : Bool :=
  operand.primitive.isTruthy

def toNumber? (operand : Operand) : Option Double :=
  operand.primitive.toNumber?

def looseEq (left right : Operand) : Bool :=
  left.primitive.looseEq right.primitive

end Operand

end Stencil
