import Stencil.Number.Digits
import Stencil.Text
import Stencil.Value.Basic

/-!
Dotted paths into a value.

A path is cut at its dots, and empty segments count for nothing, so `a..b` and
`.a.b` mean `a.b`. Each segment leads from a value to a part of it: a key of an
object, or an index of an array. A path leads to a value when every segment
does; a path without segments leads nowhere.
-/

namespace Stencil

namespace Path

/-- The segments of a path, empty ones included. -/
def segments (path : String) : List String :=
  (Text.splitAt '.' path.toList).map String.ofList

/-- The index that a segment denotes: decimal digits, with a plus sign or
without. -/
def index? (segment : String) : Option Nat :=
  let ds := match segment.toList with
    | '+' :: rest => rest
    | cs => cs
  if ds ≠ [] ∧ ds.all Char.isDigit then some (Digits.toNat ds) else none

example : segments "a..b" = ["a", "", "b"] ∧ segments "" = [""] := by decide
example : index? "+07" = some 7 ∧ index? "+" = none ∧ index? "-0" = none := by decide

end Path

namespace Value

/-- The part of a value that one segment leads to. -/
def child? : Value → String → Option Value
  | .object fields, segment => fields.lookup segment
  | .array items, segment => (Path.index? segment).bind fun index => items[index]?
  | _, _ => none

/-- The value that all segments lead to, one after the other. -/
def follow? : Value → List String → Option Value
  | value, [] => some value
  | value, segment :: rest => (value.child? segment).bind fun part => part.follow? rest

/-- The value at the nonempty segments. Without one there is none. -/
def resolveSegments? (context : Value) (segments : List String) : Option Value :=
  match segments.filter (· ≠ "") with
  | [] => none
  | steps => context.follow? steps

/-- The value at a path. -/
def resolve? (context : Value) (path : String) : Option Value :=
  context.resolveSegments? (Path.segments path)

/-- The value at a path, or the default where there is none or null. -/
def resolveOr (context : Value) (path : String) (fallback : Value) : Value :=
  match context.resolve? path with
  | none | some .null => fallback
  | some value => value

/-- A value, be it null, is at the path. -/
def hasPath (context : Value) (path : String) : Bool :=
  (context.resolve? path).isSome

end Value

end Stencil
