/-!
Open conditional chains.

A chain is what stands between an `@if` and its `@endif`; its arms begin at the
`@if`, at each `@elseif` and at an `@else`. Of an open chain only two things
matter: whether its current arm is the one to show, and whether an arm of it has
been taken already. Text is shown only when the current arm of every open chain
is. A step that needs an open chain does nothing when none is open.
-/

namespace Stencil

/-- An open chain. -/
structure Chain where
  /-- The current arm is the one to show. -/
  active : Bool
  /-- The current arm or an earlier one is the one to show. -/
  taken : Bool
  deriving DecidableEq, Repr

/-- The chains that are open, innermost first. -/
structure OpenChains where
  chains : List Chain
  deriving DecidableEq, Repr

namespace OpenChains

/-- No chain is open. -/
def none : OpenChains :=
  ⟨[]⟩

/-- The current arm of every open chain is the one to show. -/
def isActive (opened : OpenChains) : Bool :=
  opened.chains.all Chain.active

/-- The number of open chains. -/
def depth (opened : OpenChains) : Nat :=
  opened.chains.length

/-- The chain that was opened last. -/
def innermost? (opened : OpenChains) : Option Chain :=
  opened.chains.head?

/-- Opens a chain whose first arm has the given condition. -/
def start (opened : OpenChains) (condition : Bool) : OpenChains :=
  ⟨⟨condition, condition⟩ :: opened.chains⟩

/-- Moves to an arm with a condition. The condition is evaluated only where it
matters: in an open chain of which no arm has been taken. -/
def elseIf {m : Type → Type} [Monad m] (opened : OpenChains) (condition : m Bool) :
    m OpenChains :=
  match opened.chains with
  | [] => pure opened
  | chain :: outer =>
    if chain.taken then
      pure ⟨⟨false, true⟩ :: outer⟩
    else do
      let holds ← condition
      pure ⟨⟨holds, holds⟩ :: outer⟩

/-- Moves to the arm that is shown when no other is. -/
def otherwise (opened : OpenChains) : OpenChains :=
  match opened.chains with
  | [] => opened
  | chain :: outer => ⟨⟨!chain.taken, true⟩ :: outer⟩

/-- Closes the innermost chain. -/
def close (opened : OpenChains) : OpenChains :=
  ⟨opened.chains.tail⟩

end OpenChains

end Stencil
