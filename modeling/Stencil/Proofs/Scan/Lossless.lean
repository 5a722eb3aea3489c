import Stencil.Proofs.Pieces
import Stencil.Source.Scan

/-!
Scanning loses nothing.

The pieces of a source are what they are said to be: a gap takes all blanks at its
place, a comment or directive goes through the end of its line, and no other
piece begins with what would have made it one of these (`fits_of_split`). A scan
takes pieces from the first one on, reads each run and each directive as a node
on the line of its first character, and stops at the end or before a directive
that cannot be read (`exists_taken`). One node after the other, a scanner yields
what its scan collects, and then nothing more (`Scanner.yields_run`).
-/

namespace Stencil.Source

/-! ### The shape of a piece -/

/-- What a piece is like at its place, given the text that follows it. -/
def Piece.Fits (piece : Piece) (following : List Char) : Prop :=
  match piece.kind with
  | .gap => piece.text = (piece.text ++ following).takeWhile Text.isBlank
  | .comment => piece.text.head? = some '#' ∧ piece.text = throughNewline (piece.text ++ following)
  | .directive =>
    piece.text.head? = some '@' ∧ piece.text = throughNewline (piece.text ++ following)
  | .run => ∀ c ∈ piece.text.head?, Text.isBlank c = false ∧ c ≠ '#' ∧ c ≠ '@'

/-- The first piece of a source, by the kind that its first character tells. -/
theorem fits_first (c : Char) (cs : List Char) :
    (⟨.ofChar c, c :: (cutFrom (Cursor.enter c) cs).1⟩ : Piece).Fits
      ((cutFrom (Cursor.enter c) cs).2.flatMap Piece.text) := by
  have whole := flatMap_text_cutFrom (Cursor.enter c) cs
  have line (entered : Cursor.enter c = .line) (mark : c ≠ '\n') :
      c :: (cutFrom (Cursor.enter c) cs).1 = throughNewline (c :: cs) := by
    rw [entered, cutFrom_line_fst, throughNewline_cons mark]
  unfold Piece.Fits
  simp only [List.cons_append, whole]
  by_cases blank : Text.isBlank c = true
  · have kind := Piece.Kind.ofChar_eq_gap_iff.mpr blank
    have entered : Cursor.enter c = .gap := by simp only [Cursor.enter, kind]
    simp only [kind, entered, cutFrom_gap, List.takeWhile_cons_of_pos blank]
  · by_cases comment : c = '#'
    · subst comment
      exact ⟨rfl, line (by decide) (by decide)⟩
    · by_cases directive : c = '@'
      · subst directive
        exact ⟨rfl, line (by decide) (by decide)⟩
      · have kind : Piece.Kind.ofChar c = .run := by
          simp only [Piece.Kind.ofChar, blank, comment, directive, if_false, Bool.false_eq_true]
        simp only [kind]
        intro d first
        obtain rfl := Option.some.inj first
        exact ⟨Bool.eq_false_iff.mpr blank, comment, directive⟩

/-- Every piece of a source is what its kind says at the place where it stands. -/
theorem fits_of_split {cs : List Char} {before after : List Piece} {piece : Piece}
    (split : pieces cs = before ++ piece :: after) : piece.Fits (after.flatMap Piece.text) := by
  have later := eq_pieces_of_append split
  cases text : (piece :: after).flatMap Piece.text with
  | nil =>
    rw [text] at later
    cases later
  | cons c ds =>
    rw [text, pieces_cons] at later
    obtain ⟨rfl, rfl⟩ := List.cons.inj later
    exact fits_first c ds

/-! ### The places of nodes -/

/-- Behind a text, the pieces are read as these nodes, in order. A run is a text node
with the run as it stands, and the line of a node is one more than the number of
newlines before it. -/
inductive ReadsAt : List Char → List Piece → List Node → Prop where
  | nil {before : List Char} : ReadsAt before [] []
  | gap {before text : List Char} {rest : List Piece} {nodes : List Node} :
      ReadsAt (before ++ text) rest nodes → ReadsAt before (⟨.gap, text⟩ :: rest) nodes
  | comment {before text : List Char} {rest : List Piece} {nodes : List Node} :
      ReadsAt (before ++ text) rest nodes → ReadsAt before (⟨.comment, text⟩ :: rest) nodes
  | run {before text : List Char} {rest : List Piece} {nodes : List Node} :
      ReadsAt (before ++ text) rest nodes →
      ReadsAt before (⟨.run, text⟩ :: rest)
        (⟨1 + newlines before, .text (String.ofList text)⟩ :: nodes)
  | directive {before text : List Char} {rest : List Piece} {nodes : List Node}
      {kind : Node.Kind} :
      Directive.read text (1 + newlines before) = .ok kind → ReadsAt (before ++ text) rest nodes →
      ReadsAt before (⟨.directive, text⟩ :: rest) (⟨1 + newlines before, kind⟩ :: nodes)

/-- What a scan leaves of the pieces: nothing, or if there is a fault, those from the
directive on that cannot be read on its line. -/
def Scan.Leaves (scan : Scan) (line : Nat) (left : List Piece) : Prop :=
  match scan.fault? with
  | none => left = []
  | some fault => ∃ text later, left = ⟨.directive, text⟩ :: later ∧
      Directive.read text line = .error fault

/-- A scan among pieces behind a text takes them in order and leaves the rest. -/
theorem exists_taken (before : List Char) (ahead : List Piece) :
    ∃ taken left, ahead = taken ++ left ∧
      ReadsAt before taken (Scanner.runAmong ahead (1 + newlines before)).nodes ∧
      (Scanner.runAmong ahead (1 + newlines before)).Leaves
        (1 + newlines (before ++ taken.flatMap Piece.text)) left := by
  induction ahead generalizing before with
  | nil => exact ⟨[], [], rfl, .nil, rfl⟩
  | cons piece rest ih =>
    obtain ⟨kind, text⟩ := piece
    have line : 1 + newlines before + newlines text = 1 + newlines (before ++ text) := by
      rw [newlines_append, Nat.add_assoc]
    obtain ⟨taken, left, split, reads, leaves⟩ := ih (before ++ text)
    rw [List.append_assoc] at leaves
    cases kind with
    | gap =>
      simp only [Scanner.runAmong, Piece.read?, line]
      exact ⟨⟨.gap, text⟩ :: taken, left, congrArg _ split, .gap reads, leaves⟩
    | comment =>
      simp only [Scanner.runAmong, Piece.read?, line]
      exact ⟨⟨.comment, text⟩ :: taken, left, congrArg _ split, .comment reads, leaves⟩
    | run =>
      simp only [Scanner.runAmong, Piece.read?, line]
      exact ⟨⟨.run, text⟩ :: taken, left, congrArg _ split, .run reads, leaves⟩
    | directive =>
      cases read : Directive.read text (1 + newlines before) with
      | ok kind =>
        simp only [Scanner.runAmong, Piece.read?, read, Except.map, line]
        exact ⟨⟨.directive, text⟩ :: taken, left, congrArg _ split, .directive read reads, leaves⟩
      | error fault =>
        have stays : Directive.read text (1 + newlines (before ++ [])) = .error fault := by
          rwa [List.append_nil]
        simp only [Scanner.runAmong, Piece.read?, read, Except.map]
        exact ⟨[], ⟨.directive, text⟩ :: rest, rfl, .nil, text, rest, rfl, stays⟩

/-! ### One node after the other -/

/-- What a scan has collected, in order: its nodes, and its fault if it has one. -/
def Scan.items (scan : Scan) : List (Except Fault Node) :=
  scan.nodes.map .ok ++ scan.fault?.toList.map .error

namespace Scanner

/-- The scanner yields these nodes and faults, one after the other, and then nothing
more. -/
inductive Yields : Scanner → List (Except Fault Node) → Prop where
  | stop {scanner : Scanner} : scanner.next? = none → Yields scanner []
  | step {scanner after : Scanner} {item : Except Fault Node} {items : List (Except Fault Node)} :
      scanner.next? = some (item, after) → Yields after items → Yields scanner (item :: items)

/-- What a scanner yields depends on what it yields next. -/
theorem Yields.of_next?_eq {scanner scanner' : Scanner} {items : List (Except Fault Node)}
    (yields : scanner.Yields items) (same : scanner'.next? = scanner.next?) :
    scanner'.Yields items := by
  cases yields with
  | stop none => exact .stop (same.trans none)
  | step next later => exact .step (same.trans next) later

/-- A scanner yields what its run collects. -/
theorem yields_run (scanner : Scanner) : scanner.Yields scanner.run.items := by
  obtain ⟨ahead, line⟩ := scanner
  induction ahead generalizing line with
  | nil => exact .stop rfl
  | cons piece rest ih =>
    have behind := ih (line + newlines piece.text)
    simp only [run, runAmong] at behind ⊢
    cases read : piece.read? line with
    | none =>
      refine behind.of_next?_eq ?_
      simp only [next?, nextAmong?, read]
    | some outcome =>
      cases outcome with
      | ok node =>
        refine .step ?_ behind
        simp only [next?, nextAmong?, read]
      | error fault =>
        have ended : (⟨[], line⟩ : Scanner).Yields [] := .stop rfl
        refine .step ?_ ended
        simp only [next?, nextAmong?, read]

end Scanner

/-- **Scanning is lossless, ends, and counts lines right.** The pieces of a source are
the source, in order. None is empty, each gap takes all blanks at its place and no
other piece begins with a blank, and a comment or directive goes through its first
newline or to the end. A scanner from the start yields the nodes of the scan, then
its fault if it has one, and then nothing more. The nodes are the runs and the
directives among the pieces that it takes, on the lines where they begin; without
a fault it takes all pieces, and otherwise those before the directive to blame. -/
theorem scan_lossless (source : String) :
    (pieces source.toList).flatMap Piece.text = source.toList ∧
      (∀ before piece after, pieces source.toList = before ++ piece :: after →
        piece.text ≠ [] ∧ piece.Fits (after.flatMap Piece.text)) ∧
      (Scanner.start source).Yields (scan source).items ∧
      ∃ taken left, pieces source.toList = taken ++ left ∧
        ReadsAt [] taken (scan source).nodes ∧
        (scan source).Leaves (1 + newlines (taken.flatMap Piece.text)) left := by
  refine ⟨flatMap_text_pieces source.toList, fun before piece after split => ⟨?_, ?_⟩,
    (Scanner.start source).yields_run, exists_taken [] (pieces source.toList)⟩
  · have member : piece ∈ pieces source.toList := by
      rw [split]
      exact List.mem_append_right _ List.mem_cons_self
    exact text_ne_nil_of_mem_pieces member
  · exact fits_of_split split

end Stencil.Source
