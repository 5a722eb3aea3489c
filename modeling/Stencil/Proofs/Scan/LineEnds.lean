import Stencil.Proofs.Scan.Lossless
import Stencil.Proofs.Scan

/-!
Lines that end with a carriage return and a newline.

A carriage return in front of a newline is a blank of a gap, a blank at the end of a directive,
or one more character of a comment or of a run; nowhere does it begin a piece, and the newline
behind it does what it did before (`Cursor.next_return_newline`). Only where a backslash
protects the newline would it protect the carriage return instead. So a source without such a
backslash is cut at the same places (`pieces_crlf`), directives are read as the same
(`Piece.read?_crlf`), and lines are counted alike (`scan_crlf`).
-/

namespace Stencil

/-- The text with a carriage return in front of each newline. -/
def Text.crlf (cs : List Char) : List Char :=
  cs.flatMap fun c => if c = '\n' then ['\r', '\n'] else [c]

/-- `Text.crlf` on strings. -/
def Text.withReturns (text : String) : String :=
  String.ofList (Text.crlf text.toList)

/-- The node with a carriage return in front of each newline of its text, if it is a text. -/
def Node.withReturns (node : Node) : Node :=
  match node.kind with
  | .text text => ⟨node.line, .text (Text.withReturns text)⟩
  | .declare _ _ | .ifThen _ | .elseIf _ | .otherwise | .endIf => node

namespace Text

theorem crlf_newline (cs : List Char) : crlf ('\n' :: cs) = '\r' :: '\n' :: crlf cs :=
  rfl

theorem crlf_cons {c : Char} (other : c ≠ '\n') (cs : List Char) :
    crlf (c :: cs) = c :: crlf cs := by
  rw [crlf, List.flatMap_cons, if_neg other]
  rfl

theorem crlf_append (cs ds : List Char) : crlf (cs ++ ds) = crlf cs ++ crlf ds :=
  List.flatMap_append

theorem crlf_of_oneLine {cs : List Char} (oneLine : '\n' ∉ cs) : crlf cs = cs := by
  induction cs with
  | nil => rfl
  | cons c cs ih =>
    rw [List.mem_cons, not_or] at oneLine
    rw [crlf_cons (Ne.symm oneLine.1), ih oneLine.2]

end Text

namespace Source

theorem newlines_crlf (cs : List Char) : newlines (Text.crlf cs) = newlines cs := by
  induction cs with
  | nil => rfl
  | cons c cs ih =>
    by_cases newline : c = '\n'
    · subst newline
      rw [Text.crlf_newline, newlines_cons, newlines_cons '\n' (Text.crlf cs), ih,
        newlines_cons '\n' cs]
      have returns : newlines ['\r'] = 0 := by decide
      rw [returns, Nat.zero_add]
    · rw [Text.crlf_cons newline, newlines_cons, ih, newlines_cons c cs]

/-! ### Cutting -/

/-- No backslash stands directly in front of a newline. -/
def NewlinesBare : List Char → Prop
  | [] => True
  | c :: cs => (c = '\\' → cs.head? ≠ some '\n') ∧ NewlinesBare cs

instance NewlinesBare.decidable : (cs : List Char) → Decidable (NewlinesBare cs)
  | [] => inferInstanceAs (Decidable True)
  | c :: cs =>
    have := NewlinesBare.decidable cs
    inferInstanceAs (Decidable ((c = '\\' → cs.head? ≠ some '\n') ∧ NewlinesBare cs))

namespace Cursor

/-- A backslash protects what comes next. -/
def Protects (cursor : Cursor) : Prop :=
  ∃ depth, cursor = .run depth true

/-- Only a backslash protects what comes next. -/
theorem eq_backslash_of_protects_next {cursor : Cursor} {c : Char}
    (protects : (cursor.next c).Protects) : c = '\\' := by
  have inRun {depth : Nat} {escaped : Bool} (protects : (afterInRun depth escaped c).Protects) :
      c = '\\' := by
    obtain ⟨depth', inside⟩ := protects
    rcases afterInRun_eq depth escaped c with ⟨ended, _⟩ | ⟨depth'', moved⟩
    · rw [ended] at inside
      cases inside
    · rw [moved] at inside
      obtain ⟨_, flag⟩ := Cursor.run.inj inside
      exact beq_iff_eq.mp (Bool.and_eq_true_iff.mp flag).2
  have entered (protects : (enter c).Protects) : c = '\\' := by
    obtain ⟨depth, inside⟩ := protects
    cases kind : Piece.Kind.ofChar c with
    | run =>
      simp only [enter, kind] at inside
      exact inRun ⟨depth, inside⟩
    | gap | comment | directive =>
      simp only [enter, kind] at inside
      cases inside
  simp only [next] at protects
  split at protects
  · exact entered protects
  · cases cursor with
    | between => exact entered protects
    | gap =>
      obtain ⟨_, inside⟩ := protects
      cases inside
    | line =>
      obtain ⟨_, inside⟩ := protects
      simp only at inside
      split at inside <;> cases inside
    | run depth escaped => exact inRun protects

/-- Behind a carriage return a newline does what it does without, and the carriage return
begins what the newline would begin, unless a backslash protects it. -/
theorem next_return_newline {cursor : Cursor} (unprotected : ¬ cursor.Protects) :
    cursor.begins? '\r' = cursor.begins? '\n' ∧ (cursor.next '\r').begins? '\n' = none ∧
      (cursor.next '\r').next '\n' = cursor.next '\n' := by
  cases cursor with
  | between | gap | line => decide
  | run depth escaped =>
    cases escaped with
    | true => exact absurd ⟨depth, rfl⟩ unprotected
    | false => simp [begins?, next, afterInRun]

end Cursor

/-- The piece with a carriage return in front of each newline. -/
def Piece.crlf (piece : Piece) : Piece :=
  ⟨piece.kind, Text.crlf piece.text⟩

/-- Carriage returns in front of newlines change nothing about where a text is cut. -/
theorem cutFrom_crlf {cursor : Cursor} {cs : List Char} (bare : NewlinesBare cs)
    (first : cursor.Protects → cs.head? ≠ some '\n') :
    cutFrom cursor (Text.crlf cs) =
      (Text.crlf (cutFrom cursor cs).1, (cutFrom cursor cs).2.map Piece.crlf) := by
  induction cs generalizing cursor with
  | nil => rfl
  | cons c cs ih =>
    have later := @ih (cursor.next c) bare.2
      fun protects => bare.1 (Cursor.eq_backslash_of_protects_next protects)
    by_cases newline : c = '\n'
    · subst newline
      obtain ⟨begins, goesOn, moved⟩ :=
        Cursor.next_return_newline fun protects => first protects rfl
      simp only [Text.crlf_newline, cutFrom, begins, goesOn, moved, later]
      cases cursor.begins? '\n' <;> rfl
    · simp only [Text.crlf_cons newline, cutFrom, later]
      cases cursor.begins? c with
      | none => simp only [Text.crlf_cons newline]
      | some kind =>
        simp only [List.map_cons, Piece.crlf, Text.crlf_cons newline]
        rfl

theorem pieces_crlf {cs : List Char} (bare : NewlinesBare cs) :
    pieces (Text.crlf cs) = (pieces cs).map Piece.crlf := by
  rw [pieces, cutFrom_crlf bare (fun protects => ?_)]
  · rfl
  · obtain ⟨_, inside⟩ := protects
    cases inside

/-! ### Reading -/

/-- The piece has no newline but at its end. -/
def Piece.OneLine (piece : Piece) : Prop :=
  ∃ line, line ≠ [] ∧ '\n' ∉ line ∧ (piece.text = line ∨ piece.text = line ++ ['\n'])

/-- A directive is one line. -/
theorem oneLine_of_mem_pieces {cs : List Char} {piece : Piece} (member : piece ∈ pieces cs)
    (directive : piece.kind = .directive) : piece.OneLine := by
  obtain ⟨before, after, split⟩ := List.append_of_mem member
  have fits := fits_of_split split
  simp only [Piece.Fits, directive] at fits
  obtain ⟨mark, line⟩ := fits
  obtain ⟨body, single, ended⟩ := exists_throughNewline_eq (piece.text ++ after.flatMap Piece.text)
  rw [← line] at ended
  refine ⟨body, ?_, single, ended⟩
  rintro rfl
  rcases ended with text | text <;> rw [text] at mark <;> cases mark

theorem Directive.read_crlf {piece : Piece} (oneLine : piece.OneLine) (line : Nat) :
    Directive.read (Text.crlf piece.text) line = Directive.read piece.text line := by
  obtain ⟨body, nonempty, single, same | same⟩ := oneLine
  · rw [same, Text.crlf_of_oneLine single]
  · have blank : ∀ c ∈ ['\r', '\n'], Text.isBlank c = true := by
      have all : ['\r', '\n'].all Text.isBlank = true := by decide
      exact List.all_eq_true.mp all
    have returned : Text.crlf (body ++ ['\n']) = body ++ ['\r', '\n'] := by
      rw [Text.crlf_append, Text.crlf_of_oneLine single]
      rfl
    rw [same, returned, Directive.read_append_of_blank nonempty blank,
      Directive.read_append_newline]

/-- A piece is read as the same node, but for the carriage returns of its text. -/
theorem Piece.read?_crlf {piece : Piece} (oneLine : piece.kind = .directive → piece.OneLine)
    (line : Nat) :
    piece.crlf.read? line = (piece.read? line).map (·.map Node.withReturns) := by
  obtain ⟨kind, text⟩ := piece
  cases kind with
  | gap | comment => rfl
  | run =>
    simp only [Piece.crlf, Piece.read?, Option.map_some, Except.map, Node.withReturns,
      Text.withReturns, String.toList_ofList]
  | directive =>
    simp only [Piece.crlf, Piece.read?, Directive.read_crlf (oneLine rfl), Option.map_some]
    cases read : Directive.read text line with
    | error fault => rfl
    | ok kind =>
      cases kind with
      | text text => exact absurd read (Directive.read_ne_text _ _ _)
      | declare | ifThen | elseIf | otherwise | endIf => rfl

/-- The scan with a carriage return in front of each newline of a text. -/
theorem runAmong_crlf {ahead : List Piece}
    (oneLine : ∀ piece ∈ ahead, piece.kind = .directive → piece.OneLine) (line : Nat) :
    (Scanner.runAmong (ahead.map Piece.crlf) line).nodes =
        (Scanner.runAmong ahead line).nodes.map Node.withReturns ∧
      (Scanner.runAmong (ahead.map Piece.crlf) line).fault? =
        (Scanner.runAmong ahead line).fault? := by
  induction ahead generalizing line with
  | nil => exact ⟨rfl, rfl⟩
  | cons piece rest ih =>
    obtain ⟨first, others⟩ := List.forall_mem_cons.mp oneLine
    have later := ih others (line + newlines piece.text)
    have lines : newlines piece.crlf.text = newlines piece.text := newlines_crlf piece.text
    simp only [List.map_cons, Scanner.runAmong, Piece.read?_crlf first, lines]
    cases piece.read? line with
    | none => exact later
    | some outcome =>
      cases outcome with
      | error fault => exact ⟨rfl, rfl⟩
      | ok node => exact ⟨congrArg (node.withReturns :: ·) later.1, later.2⟩

/-- **Sources scan alike whether their lines end with a newline or with a carriage return and a
newline.** If no backslash stands directly in front of a newline, carriage returns in front of
the newlines of a source change neither the nodes, up to those carriage returns inside of texts,
nor the fault. -/
theorem scan_crlf {source : String} (bare : NewlinesBare source.toList) :
    (scan (Text.withReturns source)).nodes = (scan source).nodes.map Node.withReturns ∧
      (scan (Text.withReturns source)).fault? = (scan source).fault? := by
  have cut : pieces (Text.withReturns source).toList = (pieces source.toList).map Piece.crlf := by
    rw [Text.withReturns, String.toList_ofList, pieces_crlf bare]
  simp only [scan, Scanner.run, Scanner.start, cut]
  exact runAmong_crlf (fun piece => oneLine_of_mem_pieces) 1

/-- A declaration, a comment, a marker over two lines with a protected `@` behind it, and a word
too many behind `@else`. -/
theorem scan_crlf_lines :
    NewlinesBare "@var a b\n# c\nx\x7b\x7b\nk\x7d\x7d\\@\n@if a\n@else z\n".toList ∧
      (scan "@var a b\r\n# c\r\nx\x7b\x7b\r\nk\x7d\x7d\\@\r\n@if a\r\n@else z\r\n").nodes =
        [⟨1, .declare "a" (.text "b")⟩, ⟨3, .text "x\x7b\x7b\r\nk\x7d\x7d\\@\r\n"⟩,
          ⟨5, .ifThen ⟨"a", .truth "a"⟩⟩] ∧
      (scan "@var a b\r\n# c\r\nx\x7b\x7b\r\nk\x7d\x7d\\@\r\n@if a\r\n@else z\r\n").fault? =
        some (.malformedDirective "z" 6) := by
  have bare : NewlinesBare "@var a b\n# c\nx\x7b\x7b\nk\x7d\x7d\\@\n@if a\n@else z\n".toList := by
    decide
  have nodes : (scan "@var a b\n# c\nx\x7b\x7b\nk\x7d\x7d\\@\n@if a\n@else z\n").nodes =
      [⟨1, .declare "a" (.text "b")⟩, ⟨3, .text "x\x7b\x7b\nk\x7d\x7d\\@\n"⟩,
        ⟨5, .ifThen ⟨"a", .truth "a"⟩⟩] := by decide
  have fault : (scan "@var a b\n# c\nx\x7b\x7b\nk\x7d\x7d\\@\n@if a\n@else z\n").fault? =
      some (.malformedDirective "z" 6) := by decide
  have alike := scan_crlf bare
  rw [nodes, fault] at alike
  exact ⟨bare, alike⟩

/-- A backslash that protects a newline protects the carriage return instead, and the newline
ends the text. -/
example : (scan "a\\\nb").nodes = [⟨1, .text "a\\\nb"⟩] ∧
    (scan (Text.withReturns "a\\\nb")).nodes = [⟨1, .text "a\\\r\n"⟩, ⟨2, .text "b"⟩] := by decide

end Source

end Stencil
