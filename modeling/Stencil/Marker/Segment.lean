import Stencil.Text

/-!
The segments of a text with markers.

Reading from left to right, a backslash makes the next character literal. A
marker is `{{`, a text without `{`, and the first `}}` behind it; its trimmed
text is a key. A marker with a blank text is literal as it stands, and so is
every other character, among them a brace that opens no marker and a backslash
at the very end. What a key stands for is never read again.
-/

namespace Stencil.Marker

/-- A character that stands for itself, or a key that stands for its value. -/
inductive Segment where
  | literal (c : Char)
  | key (name : String)
  deriving DecidableEq, Repr

/-- The text before the first `}}`, if there is one and no `{` comes before it. -/
def keyText? : List Char → Option (List Char)
  | '}' :: '}' :: _ => some []
  | '{' :: _ => none
  | c :: cs => (keyText? cs).map (c :: ·)
  | [] => none

/-- The text of the marker at the start. -/
def atStart? : List Char → Option (List Char)
  | '{' :: '{' :: cs => keyText? cs
  | _ => none

/-- A marker, as it is written. -/
def written (text : List Char) : List Char :=
  '{' :: '{' :: text ++ ['}', '}']

/-- The segments of a marker. -/
def ofMarker (text : List Char) : List Segment :=
  match Text.trim text with
  | [] => (written text).map .literal
  | key => [.key (String.ofList key)]

/-- The segments of a text, after a number of characters that belong to a marker
which has been read. -/
def segmentsFrom : Nat → List Char → List Segment
  | _, [] => []
  | pending + 1, _ :: cs => segmentsFrom pending cs
  | 0, ['\\'] => [.literal '\\']
  | 0, '\\' :: c :: cs => .literal c :: segmentsFrom 0 cs
  | 0, c :: cs =>
    match atStart? (c :: cs) with
    | some text => ofMarker text ++ segmentsFrom (text.length + 3) cs
    | none => .literal c :: segmentsFrom 0 cs

/-- The segments of a text. -/
def segments (cs : List Char) : List Segment :=
  segmentsFrom 0 cs

example : segments "\x7b\x7b\x7b a \x7d\x7d\\\x7b\x7b \x7d\x7db".toList =
    [.literal '{', .key "a", .literal '{', .literal '{', .literal ' ', .literal '}', .literal '}',
      .literal 'b'] := by decide
example : segments "\x7b\x7b \x7d\x7d\\".toList =
    [.literal '{', .literal '{', .literal ' ', .literal '}', .literal '}', .literal '\\'] := by
  decide

end Stencil.Marker
