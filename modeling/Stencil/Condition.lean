import Stencil.Condition.Token
import Stencil.Fault
import Stencil.Scope

/-!
Conditions, the texts that `@if` and `@elseif` test.

A condition is one operand, tested for truth, or operands joined by exactly one
operator; there is neither precedence nor grouping. `Form.read` reads a trimmed
text or tells the first `Flaw` that it has, and `Condition.holds` evaluates what
was read. Operands are names, except that the right operand of a comparison may
be a literal.
-/

namespace Stencil

namespace Condition

/-- The form of a condition. Operands are trimmed and not empty. -/
inductive Form where
  /-- One operand, tested for truth. -/
  | truth (operand : String)
  /-- One operand, tested for not being true. -/
  | negation (operand : String)
  /-- Two operands with an operator between them. -/
  | join (left : String) (op : Operator) (right : String)
  deriving DecidableEq

end Condition

/-- A condition: its trimmed text and its form. -/
structure Condition where
  source : String
  form : Condition.Form
  deriving DecidableEq

namespace Condition

/-! ### Reading -/

/-- Why a text is no condition. -/
inductive Flaw where
  | blank
  | secondOperator (first second : Operator)
  | nothingAfter (op : Operator)
  | nothingBefore (op : Operator)
  /-- An operand on the left of an operator that takes none. -/
  | operandBefore (op : Operator)
  deriving DecidableEq

/-- The wording of a flaw. -/
def Flaw.message : Flaw → String
  | .blank => "empty condition"
  | .secondOperator first second =>
    s!"only one operator is allowed, found `{first.symbol}` and `{second.symbol}`"
  | .nothingAfter op => s!"missing operand after `{op.symbol}`"
  | .nothingBefore op => s!"missing operand before `{op.symbol}`"
  | .operandBefore op => s!"unexpected operand before `{op.symbol}`"

namespace Form

/-- The form that an operator makes with the trimmed texts around it. -/
def ofParts (left : List Char) (op : Operator) (right : List Char) : Except Flaw Form :=
  if right = [] then
    .error (.nothingAfter op)
  else if op.isUnary then
    if left = [] then .ok (.negation (String.ofList right)) else .error (.operandBefore op)
  else if left = [] then
    .error (.nothingBefore op)
  else
    .ok (.join (String.ofList left) op (String.ofList right))

/-- The form of a trimmed text. -/
def read (text : List Char) : Except Flaw Form :=
  if text = [] then
    .error .blank
  else
    let tokens := tokens text
    match operators tokens with
    | [] => .ok (.truth (String.ofList text))
    | [op] => ofParts (Text.trim (textBefore tokens)) op (Text.trim (textAfter tokens))
    | first :: second :: _ => .error (.secondOperator first second)

end Form

/-- Reads a condition that stands on a source line. -/
def parse (text : String) (line : Nat) : Except Fault Condition :=
  let trimmed := Text.trim text.toList
  match Form.read trimmed with
  | .ok form => .ok ⟨String.ofList trimmed, form⟩
  | .error flaw => .error (.invalidCondition (String.ofList trimmed) flaw.message line)

/-- The operator of a condition. -/
def operator? (condition : Condition) : Option Operator :=
  match condition.form with
  | .truth _ => none
  | .negation _ => some .negation
  | .join _ op _ => some op

/-! ### Evaluation -/

/-- The right operand of an operator: a comparison also admits a literal. -/
def rightOperand (scope : Scope) (op : Operator) (text : String) : Operand :=
  if op.isLogical then scope.reference text else scope.comparand text

/-- The condition holds in a scope. -/
def holds (condition : Condition) (scope : Scope) : Bool :=
  match condition.form with
  | .truth operand => (scope.reference operand).isTruthy
  | .negation operand => Operator.negation.apply .undefined (scope.reference operand)
  | .join left op right => op.apply (scope.reference left) (rightOperand scope op right)

end Condition

end Stencil
