import Stencil.Source.Node

/-!
Scanning a source.

A scanner holds the pieces that are still ahead and the line on which the next
one starts, which is one more than the number of newlines before it. It yields
one node at a time (`Scanner.next?`) and stops for good at the first fault.
`Scanner.run` collects everything that it yields.
-/

namespace Stencil.Source

/-- The number of newlines in a text. -/
def newlines (cs : List Char) : Nat :=
  cs.count '\n'

theorem newlines_append (cs ds : List Char) : newlines (cs ++ ds) = newlines cs + newlines ds :=
  List.count_append

theorem newlines_cons (c : Char) (cs : List Char) :
    newlines (c :: cs) = newlines [c] + newlines cs :=
  newlines_append [c] cs

/-- What is still ahead of a scanner, and the line that it has reached. -/
structure Scanner where
  ahead : List Piece
  line : Nat

namespace Scanner

/-- A scanner at the start of a source. -/
def start (source : String) : Scanner :=
  ⟨pieces source.toList, 1⟩

/-- The next node or fault among pieces that start on a line, and the scanner behind
it. Nothing is ahead of a scanner that has met a fault. -/
def nextAmong? : List Piece → Nat → Option (Except Fault Node × Scanner)
  | [], _ => none
  | piece :: rest, line =>
    match piece.read? line with
    | none => nextAmong? rest (line + newlines piece.text)
    | some (.ok node) => some (.ok node, ⟨rest, line + newlines piece.text⟩)
    | some (.error fault) => some (.error fault, ⟨[], line⟩)

/-- The next node or fault, and the scanner behind it. -/
def next? (scanner : Scanner) : Option (Except Fault Node × Scanner) :=
  nextAmong? scanner.ahead scanner.line

end Scanner

/-- What a scanner yields: nodes, then at most one fault; and the scanner that is
left. -/
structure Scan where
  nodes : List Node
  fault? : Option Fault
  rest : Scanner

namespace Scan

/-- Adds a node in front. -/
def cons (node : Node) (scan : Scan) : Scan :=
  { scan with nodes := node :: scan.nodes }

/-- The nodes, unless there is a fault. -/
def result (scan : Scan) : Except Fault (List Node) :=
  match scan.fault? with
  | some fault => .error fault
  | none => .ok scan.nodes

end Scan

namespace Scanner

/-- Everything that is yielded among pieces that start on a line. -/
def runAmong : List Piece → Nat → Scan
  | [], line => ⟨[], none, ⟨[], line⟩⟩
  | piece :: rest, line =>
    match piece.read? line with
    | none => runAmong rest (line + newlines piece.text)
    | some (.ok node) => (runAmong rest (line + newlines piece.text)).cons node
    | some (.error fault) => ⟨[], some fault, ⟨[], line⟩⟩

/-- Everything that a scanner yields. -/
def run (scanner : Scanner) : Scan :=
  runAmong scanner.ahead scanner.line

end Scanner

/-- The scan of a source. -/
def scan (source : String) : Scan :=
  (Scanner.start source).run

end Stencil.Source
