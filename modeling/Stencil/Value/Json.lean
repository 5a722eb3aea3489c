import Stencil.Value.Json.Token

/-!
JSON text as a value.

Tokens are assembled by a machine with a stack of the arrays and objects that
are still open (`Assembly.step`). A text is one value from end to end. When a
key is repeated its last value stands, and nesting deeper than `maxDepth` is
refused.
-/

namespace Stencil

namespace Json

/-- The number of arrays and objects that may be open at once. -/
def maxDepth : Nat :=
  127

/-- An array or object that is still open, with what it holds so far. -/
inductive Frame where
  /-- Items, last one first. -/
  | array (items : List Value)
  | object (fields : List (String × Value))
  /-- An object that waits for the value of a key. -/
  | field (fields : List (String × Value)) (key : String)

/-- What must come next. -/
inductive Awaited where
  | value
  /-- A value, or the end of an array that has just begun. -/
  | firstItem
  | key
  /-- A key, or the end of an object that has just begun. -/
  | firstKey
  | colonAfter (key : String)
  /-- A comma, or the end of the innermost array or object. -/
  | more
  /-- Nothing: the text is complete. -/
  | nothing (value : Value)

/-- A text that has been read so far: what must come, and what is open, innermost
first. -/
structure Assembly where
  awaited : Awaited
  frames : List Frame

namespace Assembly

/-- Puts a complete value where it belongs. -/
def place (value : Value) : List Frame → Option Assembly
  | [] => some ⟨.nothing value, []⟩
  | .array items :: frames => some ⟨.more, .array (value :: items) :: frames⟩
  | .field fields key :: frames => some ⟨.more, .object (insertField key value fields) :: frames⟩
  | .object _ :: _ => none

/-- Opens an array or object, unless too many are open. -/
def openFrame (awaited : Awaited) (frame : Frame) (frames : List Frame) : Option Assembly :=
  if frames.length < maxDepth then some ⟨awaited, frame :: frames⟩ else none

/-- Takes the token with which a value begins. -/
def beginValue : Token → List Frame → Option Assembly
  | .scalar value, frames => place value frames
  | .arrayOpen, frames => openFrame .firstItem (.array []) frames
  | .objectOpen, frames => openFrame .firstKey (.object []) frames
  | _, _ => none

/-- Takes the next token. -/
def step (assembly : Assembly) (token : Token) : Option Assembly :=
  match assembly.awaited, token, assembly.frames with
  | .firstItem, .arrayClose, .array _ :: frames => place (.array []) frames
  | .firstItem, token, frames => beginValue token frames
  | .value, token, frames => beginValue token frames
  | .firstKey, .objectClose, .object _ :: frames => place (.object []) frames
  | .firstKey, .scalar (.string key), frames => some ⟨.colonAfter key, frames⟩
  | .key, .scalar (.string key), frames => some ⟨.colonAfter key, frames⟩
  | .colonAfter key, .colon, .object fields :: frames => some ⟨.value, .field fields key :: frames⟩
  | .more, .comma, .array items :: frames => some ⟨.value, .array items :: frames⟩
  | .more, .comma, .object fields :: frames => some ⟨.key, .object fields :: frames⟩
  | .more, .arrayClose, .array items :: frames => place (.array items.reverse) frames
  | .more, .objectClose, .object fields :: frames => place (.object fields) frames
  | _, _, _ => none

end Assembly

end Json

/-- The value that a JSON text denotes. -/
def Value.ofJson? (text : String) : Option Value := do
  let tokens ← Json.tokens? text.toList
  match (← tokens.foldlM Json.Assembly.step ⟨.value, []⟩).awaited with
  | .nothing value => some value
  | _ => none

end Stencil
