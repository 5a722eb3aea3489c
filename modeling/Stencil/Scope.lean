import Stencil.Bindings
import Stencil.Operand
import Stencil.Value.Compact
import Stencil.Value.Path

/-!
What names stand for while a template is rendered.

A name is looked up among the declared variables first, as it stands, and then
as a path in the context, so a declaration hides the value of the context under
the same text. Conditions know three keywords after that; and what is compared
with may also be a literal, a numeral or else its own text without quotes.
-/

namespace Stencil

/-- The context and the variables declared so far. -/
structure Scope where
  context : Value
  declared : Bindings Scalar

/-- A text without the quotes around it, if it has a pair of the same kind. -/
def unquote (cs : List Char) : List Char :=
  match cs with
  | quote :: rest =>
    if (quote = '"' ∨ quote = '\'') ∧ rest.getLast? = some quote then rest.dropLast else cs
  | [] => cs

example : unquote "'a\"'".toList = "a\"".toList ∧ unquote "\"".toList = "\"".toList ∧
    unquote "''".toList = [] := by decide

namespace Operand

/-- The keywords. -/
def keyword? : String → Option Operand
  | "true" => some (.bool true)
  | "false" => some (.bool false)
  | "null" => some .null
  | _ => none

/-- A text that stands for itself: a numeral, or the text without its quotes. -/
def literal (text : String) : Operand :=
  match FiniteDouble.ofText? text with
  | some d => .number (.finite d)
  | none => .text (String.ofList (unquote text.toList))

end Operand

namespace Scope

/-- Declares a variable, in place of any earlier one of the name. -/
def declare (scope : Scope) (name : String) (value : Scalar) : Scope :=
  { scope with declared := scope.declared.set name value }

/-- What a text names: a variable, a value of the context, or a keyword. -/
def named? (scope : Scope) (text : String) : Option Operand :=
  match scope.declared.find? text with
  | some scalar => some (.variable scalar)
  | none =>
    match scope.context.resolve? text with
    | some value => some (.context value)
    | none => Operand.keyword? text

/-- An operand that has to be a name. -/
def reference (scope : Scope) (text : String) : Operand :=
  (scope.named? text).getD .undefined

/-- An operand that is a literal unless it is a name: the right one of a
comparison. -/
def comparand (scope : Scope) (text : String) : Operand :=
  (scope.named? text).getD (.literal text)

/-- The text of a key in output: of a variable, or of a value of the context. -/
def display? (scope : Scope) (key : String) : Option String :=
  match scope.declared.find? key with
  | some scalar => some scalar.display
  | none => (scope.context.resolve? key).map Value.display

section Display

variable {scope : Scope} {key : String}

/-- A variable hides what the context has under the same text. -/
theorem display?_of_declared {scalar : Scalar}
    (declared : scope.declared.find? key = some scalar) :
    scope.display? key = some scalar.display := by
  rw [display?, declared]

theorem display?_of_undeclared (undeclared : scope.declared.find? key = none) :
    scope.display? key = (scope.context.resolve? key).map Value.display := by
  rw [display?, undeclared]

/-- A key is without a text if there is neither a variable nor a value for it. -/
theorem isNone_display? (scope : Scope) (key : String) :
    (scope.display? key).isNone =
      ((scope.declared.find? key).isNone && (scope.context.resolve? key).isNone) := by
  cases declared : scope.declared.find? key with
  | some scalar =>
    rw [display?_of_declared declared]
    rfl
  | none =>
    rw [display?_of_undeclared declared, Option.isNone_map]
    rfl

end Display

end Scope

end Stencil
