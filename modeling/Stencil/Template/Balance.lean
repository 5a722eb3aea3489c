import Stencil.Source.Node

/-!
Balance of conditional chains.

Walking over the nodes from left to right, the lines of the chains that are open
form a stack. An `@elseif`, `@else` or `@endif` needs an open chain, and at the
end none may be open. Whether nodes are balanced does not depend on what stands
in them.
-/

namespace Stencil.Balance

/-- The chains that are open after a node, by the lines of their `@if`, innermost
first. -/
def step (opened : List Nat) (node : Node) : Except Fault (List Nat) :=
  match node.kind, opened with
  | .text _, _ | .declare _ _, _ => .ok opened
  | .ifThen _, _ => .ok (node.line :: opened)
  | .elseIf _, [] => .error (.unbalancedConditional .elseIf node.line)
  | .otherwise, [] => .error (.unbalancedConditional .otherwise node.line)
  | .endIf, [] => .error (.unbalancedConditional .endIf node.line)
  | .elseIf _, _ :: _ | .otherwise, _ :: _ => .ok opened
  | .endIf, _ :: outer => .ok outer

/-- The chains that are open after nodes. -/
def openAfter (opened : List Nat) (nodes : List Node) : Except Fault (List Nat) :=
  nodes.foldlM step opened

/-- Accepts nodes in which every chain is closed and nothing stands outside that
belongs into a chain. Otherwise the first node that is out of place is to blame,
or the chain that was opened last among those that stay open. -/
def check (nodes : List Node) : Except Fault Unit :=
  match openAfter [] nodes with
  | .ok [] => .ok ()
  | .ok (line :: _) => .error (.unclosedConditional line)
  | .error fault => .error fault

end Stencil.Balance
