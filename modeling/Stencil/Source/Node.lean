import Stencil.Condition
import Stencil.Source.Piece

/-!
Nodes, the elements of a template.

A text run is a node as it stands. A directive is read from its piece: the
keyword is the longest word of ASCII letters, digits and underscores behind the
`@`, and the payload is the rest, in which blanks at either end do not count.
Gaps and comments are no nodes.
-/

namespace Stencil

/-- What an element of a template does. -/
inductive Node.Kind where
  | text (text : String)
  | declare (name : String) (value : Scalar)
  | ifThen (condition : Condition)
  | elseIf (condition : Condition)
  | otherwise
  | endIf
  deriving DecidableEq

/-- An element of a template, and the line on which it starts. -/
structure Node where
  line : Nat
  kind : Node.Kind
  deriving DecidableEq

namespace Directive

/-- The characters of keywords. -/
def isWordChar (c : Char) : Bool :=
  c.isAlphanum || c == '_'

/-- A declaration: a name up to the first blank, and the text of its value. -/
def readDeclaration (payload : List Char) (line : Nat) : Except Fault Node.Kind :=
  let trimmed := Text.trim payload
  let name := trimmed.takeWhile fun c => !Text.isBlank c
  let value := trimmed.dropWhile fun c => !Text.isBlank c
  if name = [] then
    .error (.malformedDirective ("@" ++ Keyword.declare.word) line)
  else
    .ok (.declare (String.ofList name) (.parse (String.ofList (Text.trim value))))

/-- A directive that takes nothing: the first word behind it is to blame. -/
def readBare (kind : Node.Kind) (payload : List Char) (line : Nat) : Except Fault Node.Kind :=
  match Text.firstWord payload with
  | [] => .ok kind
  | word => .error (.malformedDirective (String.ofList word) line)

/-- The directive that a keyword makes with its payload. -/
def readPayload (keyword : Keyword) (payload : List Char) (line : Nat) : Except Fault Node.Kind :=
  match keyword with
  | .declare => readDeclaration payload line
  | .ifThen => (Condition.parse (String.ofList payload) line).map .ifThen
  | .elseIf => (Condition.parse (String.ofList payload) line).map .elseIf
  | .otherwise => readBare .otherwise payload line
  | .endIf => readBare .endIf payload line

/-- Reads a directive that starts on a line. Without a keyword, the token up to the
first blank is to blame. -/
def read (piece : List Char) (line : Nat) : Except Fault Node.Kind :=
  let body := piece.drop 1
  match Keyword.ofWord? (body.takeWhile isWordChar) with
  | some keyword => readPayload keyword (body.dropWhile isWordChar) line
  | none => .error (.malformedDirective (String.ofList (Text.firstWord piece)) line)

end Directive

namespace Source

/-- The node that a piece is, if it is one and can be read. -/
def Piece.read? (piece : Piece) (line : Nat) : Option (Except Fault Node) :=
  match piece.kind with
  | .gap | .comment => none
  | .run => some (.ok ⟨line, .text (String.ofList piece.text)⟩)
  | .directive => some ((Directive.read piece.text line).map (⟨line, ·⟩))

end Source

end Stencil
