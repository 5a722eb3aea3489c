import Stencil.Proofs.Offsets.Markers
import Stencil.Proofs.Offsets.Reader
import Stencil.Proofs.Scan.Boundary
import Stencil.Proofs.Scan.Lossless

/-!
Scanning by byte offsets.

One step of a reader passes blanks and reads the piece behind them. It reads the piece that is cut
there, and the reader comes to stand behind it (`Reader.step_of_piece`). So no step slips from an
offset in front of a character, and the next step begins at such an offset again
(`Reader.step_safe`): whatever can be reached, no slice slips there, and from the start on a reader
yields what the scan of its source collects (`Reader.yields_of_split`). With conditions and markers,
this holds of everything that is cut by offsets (`slices_never_slip`).
-/

namespace Stencil.Offsets

open Source (Cursor Piece cutFrom newlines pieces throughNewline)

/-! ### Runs by steps -/

/-- What a step of a reader comes to. -/
inductive Outcome where
  /-- Nothing is ahead. -/
  | done
  /-- A comment has been passed. -/
  | skipped
  | found (node : Node)

/-- What a piece on a line comes to in a step, given the reader behind it. -/
def Outcome.ofPiece (piece : Piece) (line : Nat) (after : Reader) :
    Except Stop (Outcome × Reader) :=
  match piece.read? line with
  | none => .ok (.skipped, after)
  | some (.ok node) => .ok (.found node, after)
  | some (.error fault) => .error (.fault fault)

namespace Reader

/-- Reads a piece that is no gap. -/
def readPiece (source : String) (reader : Reader) : Except Stop (Outcome × Reader) := do
  match ← reader.classify source with
  | .comment =>
    let (_, after) ← reader.takeLine source
    return (.skipped, after)
  | .run =>
    let (text, after) ← reader.takeRun source
    return (.found ⟨reader.line, .text text⟩, after)
  | .directive keyword size =>
    let (_, behind) ← reader.advance source size
    let (payload, after) ← behind.takeLine source
    let kind ← readPayload keyword payload reader.line
    return (.found ⟨reader.line, kind⟩, after)

/-- Passes blanks, and reads the piece behind them if there is one. -/
def step (source : String) (reader : Reader) : Except Stop (Outcome × Reader) := do
  let reader ← reader.skipBlanks source
  let ahead ← reader.rest source
  if ahead = "" then
    return (.done, reader)
  else
    reader.readPiece source

/-- The readers of a source: at its start, behind each step, and at its end behind a fault. -/
inductive Reachable (source : String) : Reader → Prop where
  | start : Reachable source .start
  | step {reader after : Reader} {outcome : Outcome} :
      Reachable source reader → reader.step source = .ok (outcome, after) → Reachable source after
  | stopped {reader : Reader} {fault : Fault} (line : Nat) :
      Reachable source reader → reader.step source = .error (.fault fault) →
      Reachable source ⟨source.utf8ByteSize, line⟩

/-- The reader yields these nodes and faults, one after the other, and then nothing more. -/
inductive Yields (source : String) : Reader → List (Except Fault Node) → Prop where
  | done {reader after : Reader} :
      reader.step source = .ok (.done, after) → Yields source reader []
  | skipped {reader after : Reader} {items : List (Except Fault Node)} :
      reader.step source = .ok (.skipped, after) → Yields source after items →
      Yields source reader items
  | found {reader after : Reader} {node : Node} {items : List (Except Fault Node)} :
      reader.step source = .ok (.found node, after) → Yields source after items →
      Yields source reader (.ok node :: items)
  | stopped {reader : Reader} {fault : Fault} {line : Nat} {items : List (Except Fault Node)} :
      reader.step source = .error (.fault fault) →
      Yields source ⟨source.utf8ByteSize, line⟩ items →
      Yields source reader (.error fault :: items)

end Reader

/-! ### Steps -/

section

variable {source : String} {before cs : List Char} {line : Nat}

theorem firstWord_mark (cs : List Char) :
    Text.firstWord ('@' :: cs) = '@' :: cs.takeWhile fun c => !Text.isBlank c := by
  have visible : Text.isBlank '@' = false := by decide
  simp [Text.firstWord, Text.trimStart, visible]

theorem Reader.readPiece_directive (split : source.toList = before ++ '@' :: cs) :
    readPiece source ⟨byteSize before, line⟩ =
      Outcome.ofPiece ⟨.directive, '@' :: throughNewline cs⟩ line
        ⟨byteSize (before ++ '@' :: throughNewline cs),
          line + newlines ('@' :: throughNewline cs)⟩ := by
  have noWord : Directive.isWordChar '\n' = false := by decide
  obtain ⟨word, payload⟩ := Source.takeWhile_throughNewline noWord cs
  rw [readPiece, classify_directive split]
  simp only [Outcome.ofPiece, Piece.read?, Directive.read, List.drop_succ_cons, List.drop_zero,
    word, payload]
  cases Keyword.ofWord? (cs.takeWhile Directive.isWordChar) with
  | none =>
    have blank : (!Text.isBlank '\n') = false := by decide
    rw [firstWord_mark, firstWord_mark, (Source.takeWhile_throughNewline blank cs).1]
    rfl
  | some keyword =>
    have whole : source.toList = before ++ ('@' :: cs.takeWhile Directive.isWordChar ++
        cs.dropWhile Directive.isWordChar) := by
      rw [split, List.cons_append, List.takeWhile_append_dropWhile]
    have behind : source.toList = (before ++ '@' :: cs.takeWhile Directive.isWordChar) ++
        cs.dropWhile Directive.isWordChar := by
      rw [whole, List.append_assoc]
    have taken : '@' :: throughNewline cs = '@' :: cs.takeWhile Directive.isWordChar ++
        throughNewline (cs.dropWhile Directive.isWordChar) := by
      rw [← word, ← payload, List.cons_append, List.takeWhile_append_dropWhile]
    simp only [bind, Except.bind, advance_of_split whole, takeLine_eq behind,
      readPayload_withoutLineEnd, String.toList_ofList]
    rw [taken, Source.newlines_append, Nat.add_assoc, ← List.append_assoc]
    cases Directive.readPayload keyword _ line <;> rfl

theorem Reader.readPiece_comment (split : source.toList = before ++ '#' :: cs) :
    readPiece source ⟨byteSize before, line⟩ =
      Outcome.ofPiece ⟨.comment, '#' :: throughNewline cs⟩ line
        ⟨byteSize (before ++ '#' :: throughNewline cs),
          line + newlines ('#' :: throughNewline cs)⟩ := by
  have mark : throughNewline ('#' :: cs) = '#' :: throughNewline cs :=
    Source.throughNewline_cons (by decide) cs
  rw [← mark, readPiece, classify, rest_of_split split]
  simp only [bind, Except.bind, String.toList_ofList, takeLine_eq split]
  rfl

theorem Reader.readPiece_run {c : Char} (split : source.toList = before ++ c :: cs)
    (first : Piece.Kind.ofChar c = .run) :
    readPiece source ⟨byteSize before, line⟩ =
      Outcome.ofPiece ⟨.run, c :: (cutFrom (Cursor.enter c) cs).1⟩ line
        ⟨byteSize (before ++ c :: (cutFrom (Cursor.enter c) cs).1),
          line + newlines (c :: (cutFrom (Cursor.enter c) cs).1)⟩ := by
  have ahead : classify source ⟨byteSize before, line⟩ = .ok .run := by
    rw [classify, rest_of_split split]
    simp only [bind, Except.bind, String.toList_ofList]
    split
    · next same =>
      rw [(List.cons.inj same).1] at first
      cases first
    · next same =>
      rw [(List.cons.inj same).1] at first
      cases first
    · rfl
  rw [readPiece, ahead]
  simp only [bind, Except.bind, takeRun_eq split first]
  rfl

/-- A piece is read, and the reader comes to stand behind it. -/
theorem Reader.readPiece_eq {c : Char} (split : source.toList = before ++ c :: cs)
    (visible : Text.isBlank c = false) {piece : Piece}
    (first : piece = ⟨.ofChar c, c :: (cutFrom (Cursor.enter c) cs).1⟩) :
    readPiece source ⟨byteSize before, line⟩ =
      Outcome.ofPiece piece line
        ⟨byteSize (before ++ piece.text), line + newlines piece.text⟩ := by
  subst first
  by_cases comment : c = '#'
  · subst comment
    have entered : Cursor.enter '#' = .line := by decide
    have kind : Piece.Kind.ofChar '#' = .comment := by decide
    rw [entered, kind, Source.cutFrom_line_fst]
    exact readPiece_comment split
  · by_cases directive : c = '@'
    · subst directive
      have entered : Cursor.enter '@' = .line := by decide
      have kind : Piece.Kind.ofChar '@' = .directive := by decide
      rw [entered, kind, Source.cutFrom_line_fst]
      exact readPiece_directive split
    · have kind : Piece.Kind.ofChar c = .run := by
        simp only [Piece.Kind.ofChar, visible, comment, directive, if_false, Bool.false_eq_true]
      rw [kind]
      exact readPiece_run split kind

theorem Reader.step_eq (split : source.toList = before ++ cs) (line : Nat) :
    step source ⟨byteSize before, line⟩ =
      if cs.dropWhile Text.isBlank = [] then
        .ok (.done, ⟨byteSize (before ++ cs.takeWhile Text.isBlank),
          line + newlines (cs.takeWhile Text.isBlank)⟩)
      else
        readPiece source ⟨byteSize (before ++ cs.takeWhile Text.isBlank),
          line + newlines (cs.takeWhile Text.isBlank)⟩ := by
  rw [step, skipBlanks_eq split]
  simp only [bind, Except.bind, rest_of_split (split_behind_blanks split),
    String.ofList_eq_empty_iff]
  rfl

/-- Where no piece is left behind blanks, a step is the last one. -/
theorem Reader.step_of_blank (split : source.toList = before ++ cs)
    (ahead : pieces (cs.dropWhile Text.isBlank) = []) (line : Nat) :
    step source ⟨byteSize before, line⟩ =
      .ok (.done, ⟨byteSize (before ++ cs.takeWhile Text.isBlank),
        line + newlines (cs.takeWhile Text.isBlank)⟩) := by
  have whole := Source.flatMap_text_pieces (cs.dropWhile Text.isBlank)
  rw [ahead, List.flatMap_nil] at whole
  rw [step_eq split, if_pos whole.symm]

/-- Behind blanks a step reads the next piece. -/
theorem Reader.step_of_piece (split : source.toList = before ++ cs) {piece : Piece}
    {later : List Piece} (ahead : pieces (cs.dropWhile Text.isBlank) = piece :: later)
    (line : Nat) : step source ⟨byteSize before, line⟩ =
      Outcome.ofPiece piece (line + newlines (cs.takeWhile Text.isBlank))
        ⟨byteSize (before ++ cs.takeWhile Text.isBlank ++ piece.text),
          line + newlines (cs.takeWhile Text.isBlank) + newlines piece.text⟩ := by
  have behind := split_behind_blanks split
  have visible := @Text.head?_trimStart cs
  rw [Text.trimStart] at visible
  rw [step_eq split]
  generalize cs.dropWhile Text.isBlank = rest at behind visible ahead
  cases rest with
  | nil => cases ahead
  | cons c rest =>
    rw [Source.pieces_cons] at ahead
    obtain ⟨first, _⟩ := List.cons.inj ahead
    rw [if_neg (List.cons_ne_nil c rest), readPiece_eq behind (visible c rfl) first.symm]

/-! ### Runs -/

/-- A piece makes a step fail only with a fault. -/
theorem Outcome.ofPiece_ne_slip (piece : Piece) (line : Nat) (after : Reader) :
    ofPiece piece line after ≠ .error .slip := by
  intro slipped
  unfold ofPiece at slipped
  split at slipped <;> cases slipped

theorem Outcome.eq_of_ofPiece {piece : Piece} {line : Nat} {after reader : Reader}
    {outcome : Outcome} (found : ofPiece piece line after = .ok (outcome, reader)) :
    reader = after := by
  unfold ofPiece at found
  split at found <;> cases found <;> rfl

/-- No step slips, and behind a step a reader stands in front of a character or at the end. -/
theorem Reader.step_safe (split : source.toList = before ++ cs) (line : Nat) :
    step source ⟨byteSize before, line⟩ ≠ .error .slip ∧
      ∀ outcome after, step source ⟨byteSize before, line⟩ = .ok (outcome, after) →
        ∃ before' cs', source.toList = before' ++ cs' ∧ after.cursor = byteSize before' := by
  have behind := split_behind_blanks split
  cases ahead : pieces (cs.dropWhile Text.isBlank) with
  | nil =>
    rw [step_of_blank split ahead]
    constructor
    · intro slipped
      cases slipped
    · intro outcome after stepped
      cases stepped
      exact ⟨_, _, behind, rfl⟩
  | cons piece later =>
    have whole := Source.flatMap_text_pieces (cs.dropWhile Text.isBlank)
    rw [ahead, List.flatMap_cons] at whole
    rw [← whole, ← List.append_assoc] at behind
    rw [step_of_piece split ahead]
    refine ⟨Outcome.ofPiece_ne_slip _ _ _, fun outcome after stepped => ?_⟩
    rw [Outcome.eq_of_ofPiece stepped]
    exact ⟨_, _, behind, rfl⟩

/-- Nothing is yielded at the end of a source. -/
theorem Reader.yields_at_end (source : String) (line : Nat) :
    Yields source ⟨source.utf8ByteSize, line⟩ [] := by
  have split : source.toList = source.toList ++ [] := (List.append_nil _).symm
  rw [utf8ByteSize_eq]
  exact .done (step_of_blank split rfl line)

/-- A reader yields what its next piece is read as, and what it yields behind that. -/
theorem Reader.yields_of_piece {reader : Reader} {piece : Piece} {line : Nat} {after : Reader}
    (stepped : reader.step source = Outcome.ofPiece piece line after) {later : List Piece}
    (following : Yields source after
      (Source.Scanner.runAmong later (line + newlines piece.text)).items) :
    Yields source reader (Source.Scanner.runAmong (piece :: later) line).items := by
  rw [Outcome.ofPiece] at stepped
  rw [Source.Scanner.runAmong]
  cases read : piece.read? line with
  | none =>
    rw [read] at stepped
    exact .skipped stepped following
  | some result =>
    rw [read] at stepped
    cases result with
    | ok node => exact .found stepped following
    | error fault => exact .stopped stepped (yields_at_end source line)

/-- From an offset on, a reader yields what the scan of the text there collects. The induction is
on the length of that text; each piece takes some of it. -/
theorem Reader.yields_of_split (split : source.toList = before ++ cs) (line : Nat) :
    Yields source ⟨byteSize before, line⟩ (Source.Scanner.runAmong (pieces cs) line).items := by
  induction size : cs.length using Nat.strongRecOn generalizing before cs line with
  | ind size shorter =>
    subst size
    rw [Source.runAmong_pieces_dropWhile]
    cases ahead : pieces (cs.dropWhile Text.isBlank) with
    | nil => exact .done (step_of_blank split ahead line)
    | cons piece later =>
      have cut : later = pieces (later.flatMap Piece.text) :=
        @Source.eq_pieces_of_append _ [piece] later ahead
      have whole := Source.flatMap_text_pieces (cs.dropWhile Text.isBlank)
      rw [ahead, List.flatMap_cons] at whole
      have less : (later.flatMap Piece.text).length < cs.length := by
        have nonempty : piece.text ≠ [] := by
          apply Source.text_ne_nil_of_mem_pieces
          rw [ahead]
          exact List.mem_cons_self
        have positive := List.length_pos_iff.mpr nonempty
        have dropped : (cs.dropWhile Text.isBlank).length ≤ cs.length :=
          (List.dropWhile_sublist _).length_le
        rw [← whole, List.length_append] at dropped
        omega
      have behind := split_behind_blanks split
      rw [← whole, ← List.append_assoc] at behind
      have following := fun line => shorter _ less behind line rfl
      rw [← cut] at following
      exact yields_of_piece (step_of_piece split ahead line) (following _)

/-- Where a reader stands that can be reached. -/
theorem Reader.Reachable.exists_split {reader : Reader} (reachable : Reachable source reader) :
    ∃ before cs, source.toList = before ++ cs ∧ reader.cursor = byteSize before := by
  induction reachable with
  | start => exact ⟨[], source.toList, rfl, rfl⟩
  | @step reader after outcome _ stepped ih =>
    obtain ⟨before, cs, split, cursor⟩ := ih
    obtain ⟨_, line⟩ := reader
    subst cursor
    exact (step_safe split _).2 outcome after stepped
  | stopped => exact ⟨source.toList, [], (List.append_nil _).symm, utf8ByteSize_eq source⟩

end

/-- What fails with faults only does not slip. -/
theorem mapError_fault_ne_slip {α : Type} (result : Except Fault α) :
    result.mapError .fault ≠ .error Stop.slip := by
  intro slipped
  cases result <;> cases slipped

/-- **No slice slips.** Texts are cut by byte offsets, and a slice slips whose ends lie beyond the
text or inside of a character. Whatever the source, no step of a reader slips, from the start
through the end and behind a fault, and the reader yields what the scan of the source collects.
Whatever the condition, the context, the variables and the text, reading and evaluating a condition
and filling a text do not slip either, and come to what they come to on characters. -/
theorem slices_never_slip :
    (∀ source reader, Reader.Reachable source reader → reader.step source ≠ .error .slip) ∧
    (∀ source, Reader.Yields source .start (Source.scan source).items) ∧
    (∀ text line, parse text line ≠ .error .slip ∧
      parse text line = (Condition.parse text line).mapError .fault) ∧
    (∀ condition scope, holds condition scope = .ok (condition.holds scope)) ∧
    ∀ policy scope line text, (fill policy scope line text).result ≠ .error .slip ∧
      fill policy scope line text = (Marker.fill policy scope line text).mapError .fault := by
  refine ⟨?_, fun source => ?_, fun text line => ?_, holds_eq, fun policy scope line text => ?_⟩
  · intro source reader reachable
    obtain ⟨before, cs, split, cursor⟩ := reachable.exists_split
    obtain ⟨_, line⟩ := reader
    subst cursor
    exact (Reader.step_safe split _).1
  · exact @Reader.yields_of_split source [] source.toList rfl 1
  · rw [parse_eq]
    exact ⟨mapError_fault_ne_slip _, rfl⟩
  · rw [fill_eq]
    exact ⟨mapError_fault_ne_slip _, rfl⟩

/-- Behind a run with characters of several bytes a reader stands in front of a directive, and its
next step does not slip. Inside of a character a slice would. -/
theorem slices_never_slip_multibyte :
    Reader.step "\u3000\u00e9 \x7b\x7b@\x7d\x7d@if \u00fc == 'x'\n" .start =
        .ok (.found ⟨1, .text "\u00e9 \x7b\x7b@\x7d\x7d"⟩, ⟨11, 1⟩) ∧
      Reader.Reachable "\u3000\u00e9 \x7b\x7b@\x7d\x7d@if \u00fc == 'x'\n" ⟨11, 1⟩ ∧
      Reader.step "\u3000\u00e9 \x7b\x7b@\x7d\x7d@if \u00fc == 'x'\n" ⟨11, 1⟩ ≠ .error .slip ∧
      slice "\u3000\u00e9 \x7b\x7b@\x7d\x7d@if \u00fc == 'x'\n" 4 11 = .error .slip := by
  have ahead : pieces
        ("\u3000\u00e9 \x7b\x7b@\x7d\x7d@if \u00fc == 'x'\n".toList.dropWhile Text.isBlank) =
      [⟨.run, "\u00e9 \x7b\x7b@\x7d\x7d".toList⟩,
        ⟨.directive, "@if \u00fc == 'x'\n".toList⟩] := by decide
  have stepped := @Reader.step_of_piece _ [] _ rfl _ _ ahead 1
  have lines : newlines "\u00e9 \x7b\x7b@\x7d\x7d".toList = 0 := by decide
  simp only [lines, byteSize_nil] at stepped
  have reachable := Reader.Reachable.start.step stepped
  exact ⟨stepped, reachable, slices_never_slip.1 _ _ reachable, rfl⟩

end Stencil.Offsets
