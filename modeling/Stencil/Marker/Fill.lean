import Stencil.Fault
import Stencil.Log
import Stencil.Marker.Segment
import Stencil.Options
import Stencil.Scope

/-!
Filling the markers of a text.

Each key is replaced by its text in a scope, and a key without a value is treated
as the policy says; the line that is told for it is that of the whole text.
Under the policy `ignore` filling never fails and reports nothing, and it is
`interpolate` (`fill_ignore`).
-/

namespace Stencil.Marker

/-- What a key without a value comes to. -/
def missing (policy : MissingKeys) (line : Nat) (key : String) : Logged Fault (List Char) :=
  match policy with
  | .ignore => pure []
  | .warn => do
    Logged.log (.keyMissing key line)
    return []
  | .error => .fail (.missingKey key line)

/-- What a segment comes to. -/
def Segment.fill (policy : MissingKeys) (scope : Scope) (line : Nat) :
    Segment → Logged Fault (List Char)
  | .literal c => pure [c]
  | .key name =>
    match scope.display? name with
    | some text => pure text.toList
    | none => missing policy line name

/-- What segments come to, one after the other. -/
def fillSegments (policy : MissingKeys) (scope : Scope) (line : Nat) :
    List Segment → Logged Fault (List Char)
  | [] => pure []
  | segment :: rest => do
    let text ← segment.fill policy scope line
    let following ← fillSegments policy scope line rest
    return text ++ following

/-- The text that starts on a line, with its markers filled. -/
def fill (policy : MissingKeys) (scope : Scope) (line : Nat) (text : String) :
    Logged Fault String := do
  let filled ← fillSegments policy scope line (segments text.toList)
  return String.ofList filled

/-! ### Without a policy -/

/-- The text of a segment; a key without a value has none. -/
def Segment.text (scope : Scope) : Segment → List Char
  | .literal c => [c]
  | .key name => ((scope.display? name).getD "").toList

/-- The text with its markers filled; a key without a value stands for nothing. -/
def interpolate (scope : Scope) (text : String) : String :=
  String.ofList ((segments text.toList).flatMap (Segment.text scope))

theorem Segment.fill_ignore (scope : Scope) (line : Nat) (segment : Segment) :
    segment.fill .ignore scope line = pure (segment.text scope) := by
  cases segment with
  | literal c => rfl
  | key name =>
    simp only [Segment.fill, Segment.text]
    cases scope.display? name <;> rfl

/-- Ignoring keys without a value, filling is interpolation. -/
theorem fill_ignore (scope : Scope) (line : Nat) (text : String) :
    fill .ignore scope line text = pure (interpolate scope text) := by
  suffices ∀ list, fillSegments .ignore scope line list =
      pure (list.flatMap (Segment.text scope)) by
    simp [fill, interpolate, this]
  intro list
  induction list with
  | nil => rfl
  | cons segment rest ih => simp [fillSegments, Segment.fill_ignore, ih]

end Stencil.Marker
