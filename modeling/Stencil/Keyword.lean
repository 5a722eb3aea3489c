/-!
The keywords of directives. A directive is an `@` and one of five words.
-/

namespace Stencil

/-- A directive keyword. -/
inductive Keyword where
  | declare
  | ifThen
  | elseIf
  | otherwise
  | endIf
  deriving DecidableEq, Repr

namespace Keyword

def all : List Keyword :=
  [.declare, .ifThen, .elseIf, .otherwise, .endIf]

/-- The word after the `@`. -/
def word : Keyword → String
  | .declare => "var"
  | .ifThen => "if"
  | .elseIf => "elseif"
  | .otherwise => "else"
  | .endIf => "endif"

/-- The keyword that a word is. -/
def ofWord? (word : List Char) : Option Keyword :=
  all.find? fun keyword => keyword.word.toList == word

end Keyword

end Stencil
