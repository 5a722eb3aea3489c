import Stencil.Operand

/-!
The operators of conditions.

There are nine, each with one symbol. Where two symbols match at the same place
the longer one is meant: `Operator.all` lists long symbols before short ones,
and `Operator.atStart?` takes the first that fits.
-/

namespace Stencil

/-- An operator of conditions. -/
inductive Operator where
  | atLeast
  | atMost
  | equal
  | unequal
  | both
  | either
  | above
  | below
  | negation
  deriving DecidableEq, Repr

namespace Operator

/-- All operators, those with long symbols first. -/
def all : List Operator :=
  [.atLeast, .atMost, .equal, .unequal, .both, .either, .above, .below, .negation]

/-- How an operator is written. -/
def symbol : Operator → String
  | .atLeast => ">="
  | .atMost => "<="
  | .equal => "=="
  | .unequal => "!="
  | .both => "&&"
  | .either => "||"
  | .above => ">"
  | .below => "<"
  | .negation => "!"

/-- The operator whose symbol stands at the start of a text, the longest one if
there are several. -/
def atStart? (cs : List Char) : Option Operator :=
  all.find? fun op => op.symbol.toList.isPrefixOf cs

example : atStart? ">=1".toList = some .atLeast ∧ atStart? ">1".toList = some .above ∧
    atStart? "=1".toList = none := by decide

/-- The operator has no left operand. -/
def isUnary : Operator → Bool
  | .negation => true
  | _ => false

/-- The operator looks only at the truth of its operands. -/
def isLogical : Operator → Bool
  | .both | .either | .negation => true
  | _ => false

/-- The operator compares its operands. -/
def isComparison (op : Operator) : Bool :=
  !op.isLogical

/-- The operator holds of numbers in the given order. Only the four orderings ever
do. -/
def holdsOf : Operator → Ordering → Bool
  | .above, ordering => ordering == .gt
  | .atLeast, ordering => ordering != .lt
  | .below, ordering => ordering == .lt
  | .atMost, ordering => ordering != .gt
  | _, _ => false

/-- The operator holds of the numbers of two operands. Without two numbers it
does not. -/
def ordersAs (op : Operator) (left right : Operand) : Bool :=
  match left.toNumber?, right.toNumber? with
  | some a, some b => (a.compare? b).any op.holdsOf
  | _, _ => false

/-- The result of an operator. Negation ignores its left operand. -/
def apply (op : Operator) (left right : Operand) : Bool :=
  match op with
  | .above | .atLeast | .below | .atMost => op.ordersAs left right
  | .equal => left.looseEq right
  | .unequal => !left.looseEq right
  | .both => left.isTruthy && right.isTruthy
  | .either => left.isTruthy || right.isTruthy
  | .negation => !right.isTruthy

end Operator

end Stencil
