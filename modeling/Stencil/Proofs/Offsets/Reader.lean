import Stencil.Proofs.Markers.Runs
import Stencil.Proofs.Offsets.Condition

/-!
Readers by byte offsets.

A reader holds an offset into its source. What it takes from there is a slice, and the offset moves
on by the bytes of it: the blanks that are ahead, the rest of a line, a run. The end of a line, the
end of a run and the end of a keyword are searched for by offsets, and they are found where the
pieces of the source are cut (`Reader.takeLine_eq`, `Reader.runEnd_eq`,
`Reader.classify_directive`). So from in front of a character a reader comes to stand in front of a
character again, or at the end. Payloads of directives are cut by offsets, too, and read as they
are on characters (`readPayload_eq`).
-/

namespace Stencil.Offsets

open Source (Cursor Piece cutFrom newlines throughNewline)

/-! ### Readers -/

/-- How far a source has been read, and the line that has been reached. -/
structure Reader where
  cursor : Nat
  line : Nat

namespace Reader

/-- A reader at the start of a source. -/
def start : Reader :=
  ⟨0, 1⟩

/-- What is still ahead. -/
def rest (source : String) (reader : Reader) : Except Stop String :=
  sliceFrom source reader.cursor

/-- The text that a number of bytes takes, and the reader behind it. -/
def advance (source : String) (reader : Reader) (size : Nat) : Except Stop (String × Reader) := do
  let taken ← slice source reader.cursor (reader.cursor + size)
  return (taken, ⟨reader.cursor + size, reader.line + newlines taken.toList⟩)

/-- The reader behind the blanks that are ahead. -/
def skipBlanks (source : String) (reader : Reader) : Except Stop Reader := do
  let ahead ← reader.rest source
  let visible := String.ofList (Text.trimStart ahead.toList)
  let (_, after) ← reader.advance source (ahead.utf8ByteSize - visible.utf8ByteSize)
  return after

/-- The text without the newlines and carriage returns at its end. -/
def withoutLineEnd (text : String) : String :=
  String.ofList (text.toList.reverse.dropWhile fun c => c == '\n' || c == '\r').reverse

/-- The rest of the line, and the reader behind its newline. -/
def takeLine (source : String) (reader : Reader) : Except Stop (String × Reader) := do
  let ahead ← reader.rest source
  let size := ((findChar? (· == '\n') ahead).map (· + 1)).getD ahead.utf8ByteSize
  let (taken, after) ← reader.advance source size
  return (withoutLineEnd taken, after)

/-- The offset where a run ends, given the size of the text and the number of open braces. -/
def runEnd (size : Nat) : Nat → List (Nat × Char) → Nat
  | _, [] => size
  | _, [(_, '\\')] => size
  | depth, (_, '\\') :: _ :: chars => runEnd size depth chars
  | depth, (place, c) :: chars =>
    if c = '{' then
      runEnd size (depth + 1) chars
    else if c = '}' then
      runEnd size (depth - 1) chars
    else if c = '@' ∧ depth = 0 then
      place
    else if c = '\n' ∧ depth = 0 then
      place + 1
    else
      runEnd size depth chars

/-- A run, and the reader behind it. -/
def takeRun (source : String) (reader : Reader) : Except Stop (String × Reader) := do
  let ahead ← reader.rest source
  reader.advance source (runEnd ahead.utf8ByteSize 0 (indexed 0 ahead.toList))

/-- What a reader has in front of it. -/
inductive Lookahead where
  | comment
  | run
  /-- A keyword, and the number of bytes that it takes with its `@`. -/
  | directive (keyword : Keyword) (size : Nat)

def classify (source : String) (reader : Reader) : Except Stop Lookahead := do
  let ahead ← reader.rest source
  match ahead.toList with
  | '#' :: _ => return .comment
  | '@' :: cs =>
    let body := String.ofList cs
    let size := (findChar? (fun c => !Directive.isWordChar c) body).getD body.utf8ByteSize
    let word ← slice body 0 size
    match Keyword.ofWord? word.toList with
    | some keyword => return .directive keyword (size + 1)
    | none =>
      let token := String.ofList (Text.firstWord ahead.toList)
      .error (.fault (.malformedDirective token reader.line))
  | _ => return .run

end Reader

/-! ### Taking a text -/

section

variable {source : String} {before part after cs : List Char} {line : Nat}

theorem Reader.rest_of_split (split : source.toList = before ++ cs) :
    rest source ⟨byteSize before, line⟩ = .ok (String.ofList cs) :=
  sliceFrom_of_split split

theorem Reader.advance_of_split (split : source.toList = before ++ (part ++ after)) :
    advance source ⟨byteSize before, line⟩ (byteSize part) =
      .ok (String.ofList part, ⟨byteSize (before ++ part), line + newlines part⟩) := by
  rw [advance, slice_of_split split, byteSize_append]
  simp only [bind, Except.bind, String.toList_ofList]
  rfl

theorem split_behind_blanks (split : source.toList = before ++ cs) :
    source.toList = (before ++ cs.takeWhile Text.isBlank) ++ cs.dropWhile Text.isBlank := by
  rw [List.append_assoc, List.takeWhile_append_dropWhile, split]

/-- All blanks are passed. -/
theorem Reader.skipBlanks_eq (split : source.toList = before ++ cs) :
    skipBlanks source ⟨byteSize before, line⟩ =
      .ok ⟨byteSize (before ++ cs.takeWhile Text.isBlank),
        line + newlines (cs.takeWhile Text.isBlank)⟩ := by
  have whole := split
  rw [← @List.takeWhile_append_dropWhile _ Text.isBlank cs] at whole
  have size : byteSize cs - byteSize (Text.trimStart cs) =
      byteSize (cs.takeWhile Text.isBlank) := by
    have both := byteSize_append (cs.takeWhile Text.isBlank) (cs.dropWhile Text.isBlank)
    rw [List.takeWhile_append_dropWhile] at both
    rw [both, Text.trimStart, Nat.add_sub_cancel]
  rw [skipBlanks, rest_of_split split]
  simp only [bind, Except.bind, String.toList_ofList, utf8ByteSize_ofList, size,
    advance_of_split whole]
  rfl

/-- The end of a line is found behind its newline. -/
theorem size_of_line (text : String) :
    ((findChar? (· == '\n') text).map (· + 1)).getD text.utf8ByteSize =
      byteSize (throughNewline text.toList) := by
  rw [utf8ByteSize_eq, findChar?]
  induction text.toList with
  | nil => rfl
  | cons c cs ih =>
    by_cases newline : c = '\n'
    · subst newline
      rw [find?_cons_of_pos rfl, Source.throughNewline_newline]
      rfl
    · have other : ((c :: cs).head?.any (· == '\n')) = false := beq_false_of_ne newline
      rw [find?_cons_of_neg other, Source.throughNewline_cons newline, byteSize_cons, byteSize_cons,
        ← ih]
      cases find? (fun cs => cs.head?.any (· == '\n')) cs with
      | none => rfl
      | some place =>
        simp only [Option.map_some, Option.getD_some]
        omega

/-- A line is taken as pieces are cut. -/
theorem Reader.takeLine_eq (split : source.toList = before ++ cs) :
    takeLine source ⟨byteSize before, line⟩ =
      .ok (withoutLineEnd (String.ofList (throughNewline cs)),
        ⟨byteSize (before ++ throughNewline cs), line + newlines (throughNewline cs)⟩) := by
  have cut := Source.flatMap_text_cutFrom .line cs
  rw [Source.cutFrom_line_fst] at cut
  have whole := split
  rw [← cut] at whole
  rw [takeLine, rest_of_split split]
  simp only [bind, Except.bind, size_of_line, String.toList_ofList, advance_of_split whole]
  rfl

/-- A run goes on behind a character that a backslash protects. -/
theorem Reader.runEnd_of_escaped {depth place : Nat} {c : Char}
    (later : runEnd (place + byteSize ('\\' :: c :: cs)) depth
        (indexed (place + byteSize ['\\', c]) cs) =
      place + byteSize ['\\', c] + byteSize (cutFrom (.run depth false) cs).1) :
    runEnd (place + byteSize ('\\' :: c :: cs)) depth (indexed place ('\\' :: c :: cs)) =
      place + byteSize (cutFrom (.run depth false) ('\\' :: c :: cs)).1 := by
  obtain ⟨keeps, inside⟩ := Cursor.keeps_escaped depth c
  have cut := Source.cutFrom_append_of_keeps keeps cs
  rw [List.cons_append, List.singleton_append, inside] at cut
  have behind : place + '\\'.utf8Size + c.utf8Size = place + byteSize ['\\', c] := by
    rw [byteSize_cons, byteSize_singleton, Nat.add_assoc]
  rw [indexed, indexed, runEnd, behind, later, cut, byteSize_append, Nat.add_assoc]

/-- What a run comes to behind a character is what cutting comes to there. -/
theorem Reader.runEnd_of_plain {depth place : Nat} {c : Char} (plain : c ≠ '\\')
    (later : ∀ depth',
      runEnd (place + byteSize (c :: cs)) depth' (indexed (place + c.utf8Size) cs) =
        place + c.utf8Size + byteSize (cutFrom (.run depth' false) cs).1) :
    runEnd (place + byteSize (c :: cs)) depth (indexed place (c :: cs)) =
      place + byteSize (cutFrom (.run depth false) (c :: cs)).1 := by
  by_cases begins : c = '@' ∧ depth = 0
  · obtain ⟨rfl, rfl⟩ := begins
    rfl
  · have goesOn : (Cursor.run depth false).begins? c = none := by
      simp only [Cursor.begins?, and_true]
      exact if_neg begins
    simp only [cutFrom, goesOn, Cursor.next]
    rw [indexed, runEnd, byteSize_cons c (Prod.fst _), ← Nat.add_assoc]
    · simp only [later, Cursor.afterInRun, plain, begins, if_false, Bool.false_eq_true]
      split
      · rfl
      · split
        · rfl
        · split
          · next newline =>
            rw [newline.1, Source.cutFrom_between_fst]
            rfl
          · rfl
    · exact fun _ same => plain same
    · exact fun _ _ _ same => plain same

/-- The end of a run is found where pieces are cut. The induction is on the length of what is left,
since a backslash is passed with the character behind it. -/
theorem Reader.runEnd_eq (depth place : Nat) (cs : List Char) :
    runEnd (place + byteSize cs) depth (indexed place cs) =
      place + byteSize (cutFrom (.run depth false) cs).1 := by
  induction size : cs.length using Nat.strongRecOn generalizing depth place cs with
  | ind size shorter =>
    subst size
    have behind {passed rest : List Char} (here : cs = passed ++ rest) (nonempty : passed ≠ [])
        (depth' : Nat) :
        runEnd (place + byteSize cs) depth' (indexed (place + byteSize passed) rest) =
          place + byteSize passed + byteSize (cutFrom (.run depth' false) rest).1 := by
      have positive := List.length_pos_iff.mpr nonempty
      rw [here, byteSize_append, ← Nat.add_assoc]
      refine shorter rest.length ?_ _ _ _ rfl
      rw [here, List.length_append]
      omega
    cases cs with
    | nil => rfl
    | cons c cs =>
      by_cases backslash : c = '\\'
      · subst backslash
        cases cs with
        | nil => rfl
        | cons c cs =>
          exact runEnd_of_escaped (@behind ['\\', c] cs rfl (List.cons_ne_nil _ _) depth)
      · have later := @behind [c] cs rfl (List.cons_ne_nil _ _)
        rw [byteSize_singleton] at later
        exact runEnd_of_plain backslash later

/-- A run is taken as pieces are cut. -/
theorem Reader.takeRun_eq {c : Char} (split : source.toList = before ++ c :: cs)
    (first : Piece.Kind.ofChar c = .run) :
    takeRun source ⟨byteSize before, line⟩ =
      .ok (String.ofList (c :: (cutFrom (Cursor.enter c) cs).1),
        ⟨byteSize (before ++ c :: (cutFrom (Cursor.enter c) cs).1),
          line + newlines (c :: (cutFrom (Cursor.enter c) cs).1)⟩) := by
  obtain ⟨goesOn, entered⟩ := Cursor.next_run_of_first first
  have size := runEnd_eq 0 0 (c :: cs)
  simp only [cutFrom, goesOn, entered, Nat.zero_add] at size
  have cut := Source.flatMap_text_cutFrom (Cursor.enter c) cs
  have whole : source.toList = before ++ (c :: (cutFrom (Cursor.enter c) cs).1 ++
      (cutFrom (Cursor.enter c) cs).2.flatMap Piece.text) := by
    rw [split, List.cons_append, cut]
  rw [takeRun, rest_of_split split]
  simp only [bind, Except.bind, String.toList_ofList, utf8ByteSize_ofList, size]
  exact advance_of_split whole

/-! ### Keywords -/

theorem Reader.classify_directive (split : source.toList = before ++ '@' :: cs) :
    classify source ⟨byteSize before, line⟩ =
      match Keyword.ofWord? (cs.takeWhile Directive.isWordChar) with
      | some keyword =>
        .ok (.directive keyword (byteSize ('@' :: cs.takeWhile Directive.isWordChar)))
      | none => .error
        (.fault (.malformedDirective (String.ofList (Text.firstWord ('@' :: cs))) line)) := by
  have word := (slices_of_findChar? (fun c => !Directive.isWordChar c) (String.ofList cs)).1
  have size := findChar?_getD (fun c => !Directive.isWordChar c) (String.ofList cs)
  simp only [Bool.not_not, String.toList_ofList] at word size
  rw [size] at word
  rw [classify, rest_of_split split]
  simp only [bind, Except.bind, String.toList_ofList, size, word]
  cases Keyword.ofWord? (cs.takeWhile Directive.isWordChar) with
  | none => rfl
  | some keyword =>
    rw [byteSize_cons, Nat.add_comm]
    rfl

end

/-! ### Payloads -/

/-- A declaration: a name up to the first blank, and the text of its value. -/
def readDeclaration (payload : String) (line : Nat) : Except Stop Node.Kind := do
  let trimmed := Text.trimmed payload
  let size := (findChar? Text.isBlank trimmed).getD trimmed.utf8ByteSize
  let name ← slice trimmed 0 size
  let value ← sliceFrom trimmed size
  if name = "" then
    .error (.fault (.malformedDirective ("@" ++ Keyword.declare.word) line))
  else
    return .declare name (.parse (Text.trimmed value))

/-- The directive that a keyword makes with its payload. -/
def readPayload (keyword : Keyword) (payload : String) (line : Nat) : Except Stop Node.Kind :=
  match keyword with
  | .declare => readDeclaration payload line
  | .ifThen => (parse payload line).map .ifThen
  | .elseIf => (parse payload line).map .elseIf
  | .otherwise => (Directive.readBare .otherwise payload.toList line).mapError .fault
  | .endIf => (Directive.readBare .endIf payload.toList line).mapError .fault

theorem readDeclaration_eq (payload : String) (line : Nat) :
    readDeclaration payload line =
      (Directive.readDeclaration payload.toList line).mapError .fault := by
  have trimmed : Text.trim payload.toList = (Text.trimmed payload).toList :=
    String.toList_ofList.symm
  rw [readDeclaration, Directive.readDeclaration, trimmed]
  generalize Text.trimmed payload = text
  obtain ⟨name, value⟩ := slices_of_findChar? Text.isBlank text
  simp only [bind, Except.bind, name, value]
  rw [Text.trimmed, String.toList_ofList]
  generalize text.toList.takeWhile (fun c => !Text.isBlank c) = word
  by_cases none : word = []
  · subst none
    rfl
  · have some : String.ofList word ≠ "" := by
      rwa [ne_eq, String.ofList_eq_empty_iff]
    rw [if_neg none, if_neg some]
    rfl

theorem readPayload_eq (keyword : Keyword) (payload : String) (line : Nat) :
    readPayload keyword payload line =
      (Directive.readPayload keyword payload.toList line).mapError .fault := by
  have condition (make : Condition → Node.Kind) : (parse payload line).map make =
      ((Condition.parse payload line).map make).mapError .fault := by
    rw [parse_eq]
    cases Condition.parse payload line <;> rfl
  cases keyword with
  | declare => exact readDeclaration_eq payload line
  | ifThen | elseIf =>
    rw [readPayload, Directive.readPayload, String.ofList_toList]
    exact condition _
  | otherwise | endIf => rfl

/-- Newlines and carriage returns at the end of a line are blanks. -/
theorem exists_withoutLineEnd_append (text : String) :
    ∃ ending, text.toList = (Reader.withoutLineEnd text).toList ++ ending ∧
      ∀ c ∈ ending, Text.isBlank c = true := by
  refine ⟨(text.toList.reverse.takeWhile fun c => c == '\n' || c == '\r').reverse, ?_, ?_⟩
  · rw [Reader.withoutLineEnd, String.toList_ofList, ← List.reverse_append,
      List.takeWhile_append_dropWhile, List.reverse_reverse]
  · intro c member
    have either := List.all_eq_true.mp List.all_takeWhile c (List.mem_reverse.mp member)
    rcases (Bool.or_eq_true _ _).mp either with newline | returned
    · rw [beq_iff_eq.mp newline]
      decide
    · rw [beq_iff_eq.mp returned]
      decide

theorem readPayload_withoutLineEnd (keyword : Keyword) (text : String) (line : Nat) :
    readPayload keyword (Reader.withoutLineEnd text) line =
      (Directive.readPayload keyword text.toList line).mapError .fault := by
  obtain ⟨ending, split, blank⟩ := exists_withoutLineEnd_append text
  rw [readPayload_eq, split, Directive.readPayload_append_of_blank keyword _ blank]

end Stencil.Offsets
