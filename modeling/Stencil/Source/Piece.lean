import Stencil.Text

/-!
The pieces of a source.

A source is cut into gaps of blanks, comments, directives and text runs. The
first character of a piece tells its kind. A gap is as long as it can be; a
comment or directive goes through the next newline; a run ends before an `@` or
after a newline, but neither counts between braces or behind a backslash. The
machine that cuts looks at one character at a time (`Cursor.begins?`,
`Cursor.next`), and nothing is lost: the pieces make up the source
(`flatMap_text_pieces`) and none is empty (`text_ne_nil_of_mem_pieces`).
-/

namespace Stencil.Source

/-- What a piece of a source is. -/
inductive Piece.Kind where
  | gap
  | comment
  | directive
  | run
  deriving DecidableEq, Repr

/-- A piece of a source. -/
structure Piece where
  kind : Piece.Kind
  text : List Char
  deriving DecidableEq, Repr

/-- The kind of a piece, by its first character. -/
def Piece.Kind.ofChar (c : Char) : Piece.Kind :=
  if Text.isBlank c then
    .gap
  else if c = '#' then
    .comment
  else if c = '@' then
    .directive
  else
    .run

/-! ### The machine -/

/-- Where the cutting of a source stands. -/
inductive Cursor where
  /-- At the start, or behind a piece that has ended. -/
  | between
  /-- In a gap. -/
  | gap
  /-- In a comment or directive. -/
  | line
  /-- In a run, with this many braces open; `escaped` right behind a backslash that
  protects the next character. -/
  | run (depth : Nat) (escaped : Bool)
  deriving DecidableEq, Repr

namespace Cursor

/-- Behind one more character of a run. A brace that closes nothing is ignored. -/
def afterInRun (depth : Nat) (escaped : Bool) (c : Char) : Cursor :=
  if escaped then
    .run depth false
  else if c = '\\' then
    .run depth true
  else if c = '{' then
    .run (depth + 1) false
  else if c = '}' then
    .run (depth - 1) false
  else if c = '\n' ∧ depth = 0 then
    .between
  else
    .run depth false

/-- Behind the first character of a piece. -/
def enter (c : Char) : Cursor :=
  match Piece.Kind.ofChar c with
  | .gap => .gap
  | .comment | .directive => .line
  | .run => afterInRun 0 false c

/-- The kind of the piece that a character begins, if it begins one. -/
def begins? : Cursor → Char → Option Piece.Kind
  | .between, c => some (.ofChar c)
  | .gap, c => if Text.isBlank c then none else some (.ofChar c)
  | .line, _ => none
  | .run depth escaped, c =>
    if c = '@' ∧ depth = 0 ∧ escaped = false then some .directive else none

/-- Behind one more character. -/
def next (cursor : Cursor) (c : Char) : Cursor :=
  match cursor.begins? c with
  | some _ => enter c
  | none =>
    match cursor with
    | .between => enter c
    | .gap => .gap
    | .line => if c = '\n' then .between else .line
    | .run depth escaped => afterInRun depth escaped c

end Cursor

/-- Cuts a text from a place on: what still belongs to the piece that is being
cut, and the pieces after it. -/
def cutFrom : Cursor → List Char → List Char × List Piece
  | _, [] => ([], [])
  | cursor, c :: cs =>
    let (text, later) := cutFrom (cursor.next c) cs
    match cursor.begins? c with
    | some kind => ([], ⟨kind, c :: text⟩ :: later)
    | none => (c :: text, later)

/-- The pieces of a source. -/
def pieces (cs : List Char) : List Piece :=
  (cutFrom .between cs).2

example : pieces " #x\na\x7b\n@\x7d\n\\@b@if".toList =
    [⟨.gap, " ".toList⟩, ⟨.comment, "#x\n".toList⟩, ⟨.run, "a\x7b\n@\x7d\n".toList⟩,
      ⟨.run, "\\@b".toList⟩, ⟨.directive, "@if".toList⟩] := by decide

/-! ### Nothing is lost -/

theorem cutFrom_between_fst (cs : List Char) : (cutFrom .between cs).1 = [] := by
  cases cs <;> simp [cutFrom, Cursor.begins?]

theorem flatMap_text_cutFrom (cursor : Cursor) (cs : List Char) :
    (cutFrom cursor cs).1 ++ (cutFrom cursor cs).2.flatMap Piece.text = cs := by
  induction cs generalizing cursor with
  | nil => simp [cutFrom]
  | cons c cs ih =>
    simp only [cutFrom]
    split <;> simpa using ih (cursor.next c)

/-- The pieces make up the source, in order. -/
theorem flatMap_text_pieces (cs : List Char) : (pieces cs).flatMap Piece.text = cs := by
  have := flatMap_text_cutFrom .between cs
  rwa [cutFrom_between_fst, List.nil_append] at this

theorem text_ne_nil_of_mem_cutFrom {cursor : Cursor} {cs : List Char} {piece : Piece}
    (member : piece ∈ (cutFrom cursor cs).2) : piece.text ≠ [] := by
  induction cs generalizing cursor with
  | nil => simp [cutFrom] at member
  | cons c cs ih =>
    simp only [cutFrom] at member
    split at member
    · rcases List.mem_cons.mp member with rfl | later
      · simp
      · exact ih later
    · exact ih member

/-- No piece is empty. -/
theorem text_ne_nil_of_mem_pieces {cs : List Char} {piece : Piece}
    (member : piece ∈ pieces cs) : piece.text ≠ [] :=
  text_ne_nil_of_mem_cutFrom member

end Stencil.Source
