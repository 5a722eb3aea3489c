import Stencil.Proofs.Scan.Boundary
import Stencil.Proofs.Scan.Lossless
import Stencil.Template

/-!
Where a scan fails.

A scan that fails does so at one directive, which cannot be read on its line
(`FailsAt`). What stands in front of the directive is scanned as if the source ended
there, the fault tells the line of its `@` (`Directive.line?_of_read`), and nothing
behind that line is looked at. A fault of the scan is what compiling fails with,
before anything is said about balance (`Template.compile_of_fault`,
`scan_fault_local`).
-/

namespace Stencil

/-! ### Lines of faults -/

theorem Condition.line?_of_parse {text : String} {line : Nat} {fault : Fault}
    (failed : parse text line = .error fault) : fault.line? = some line := by
  simp only [parse] at failed
  split at failed
  · cases failed
  · cases failed
    rfl

namespace Directive

theorem line?_of_readBare {kind : Node.Kind} {payload : List Char} {line : Nat} {fault : Fault}
    (failed : readBare kind payload line = .error fault) : fault.line? = some line := by
  simp only [readBare] at failed
  split at failed
  · cases failed
  · cases failed
    rfl

theorem line?_of_readPayload {keyword : Keyword} {payload : List Char} {line : Nat} {fault : Fault}
    (failed : readPayload keyword payload line = .error fault) : fault.line? = some line := by
  have condition {make : Condition → Node.Kind}
      (failed : (Condition.parse (String.ofList payload) line).map make = .error fault) :
      fault.line? = some line := by
    cases parsed : Condition.parse (String.ofList payload) line with
    | ok condition =>
      rw [parsed] at failed
      cases failed
    | error flawed =>
      rw [parsed] at failed
      cases failed
      exact Condition.line?_of_parse parsed
  cases keyword with
  | declare =>
    simp only [readPayload, readDeclaration] at failed
    split at failed
    · cases failed
      rfl
    · cases failed
  | ifThen | elseIf => exact condition failed
  | otherwise | endIf => exact line?_of_readBare failed

/-- A directive that cannot be read is to blame at its own line. -/
theorem line?_of_read {piece : List Char} {line : Nat} {fault : Fault}
    (failed : read piece line = .error fault) : fault.line? = some line := by
  simp only [read] at failed
  split at failed
  · exact line?_of_readPayload failed
  · cases failed
    rfl

end Directive

/-! ### Faults of a scan come first -/

/-- Compiling fails with the fault of the scan, without a look at the balance. -/
theorem Template.compile_of_fault {source : String} {fault : Fault}
    (failed : (Source.scan source).fault? = some fault) (name : Option String) :
    compile name source = .fail ⟨fault, name⟩ := by
  have result : (Source.scan source).result = .error fault := by
    rw [Source.Scan.result, failed]
  have made : ofSource name source = .error fault := by
    unfold ofSource
    split
    · next found =>
      rw [result] at found
      cases found
      rfl
    · next found =>
      rw [result] at found
      cases found
  exact compile_of_error made

namespace Source

/-! ### The place of a fault -/

/-- In the source a directive stands between the texts before and after it; it goes
through the end of its line, and it cannot be read where it stands. -/
structure FailsAt (source : String) (fault : Fault) (before directive after : List Char) :
    Prop where
  source_eq : source.toList = before ++ (directive ++ after)
  mark : directive.head? = some '@'
  line_eq : directive = throughNewline (directive ++ after)
  unreadable : Directive.read directive (1 + newlines before) = .error fault

/-- A scanner reads pieces as the nodes that they are said to be. -/
theorem result_of_readsAt {before : List Char} {ahead : List Piece} {nodes : List Node}
    (reads : ReadsAt before ahead nodes) :
    (Scanner.runAmong ahead (1 + newlines before)).result = .ok nodes := by
  induction reads with
  | nil => rfl
  | @gap before text rest nodes _ ih | @comment before text rest nodes _ ih =>
    rw [newlines_append, ← Nat.add_assoc] at ih
    exact ih
  | @run before text rest nodes _ ih =>
    rw [newlines_append, ← Nat.add_assoc] at ih
    simp only [Scanner.runAmong, Piece.read?, Scan.result_cons, ih]
    rfl
  | @directive before text rest nodes kind read _ ih =>
    rw [newlines_append, ← Nat.add_assoc] at ih
    simp only [Scanner.runAmong, Piece.read?, read, Except.map, Scan.result_cons, ih]

/-- A directive that ends with a newline is cut on its own, whatever follows. -/
theorem pieces_directive_append {directive after : List Char}
    (mark : directive.head? = some '@') (line : directive = throughNewline (directive ++ after))
    (newline : '\n' ∈ directive) (other : List Char) :
    pieces (directive ++ other) = ⟨.directive, directive⟩ :: pieces other := by
  obtain ⟨body, rest, rfl, oneLine⟩ := List.eq_append_cons_of_mem newline
  rw [List.append_assoc, List.cons_append, throughNewline_append oneLine] at line
  obtain rfl : rest = [] := (List.cons.inj (List.append_cancel_left line)).2
  cases body with
  | nil => cases mark
  | cons c body =>
    obtain rfl := Option.some.inj mark
    have entered : Cursor.enter '@' = .line := by decide
    exact pieces_line_append entered (fun inside => oneLine (List.mem_cons_of_mem _ inside)) other

/-- Behind the nodes of the pieces in front of it, a directive that cannot be read ends the
scan with its fault. -/
theorem runAmong_of_unreadable {ahead : List Piece} {nodes : List Node} {directive : List Char}
    {fault : Fault} {line : Nat} (scanned : (Scanner.runAmong ahead line).result = .ok nodes)
    (unreadable : Directive.read directive (line + newlines (ahead.flatMap Piece.text)) =
      .error fault) (later : List Piece) :
    (Scanner.runAmong (ahead ++ ⟨.directive, directive⟩ :: later) line).nodes = nodes ∧
      (Scanner.runAmong (ahead ++ ⟨.directive, directive⟩ :: later) line).fault? = some fault := by
  rw [runAmong_append scanned]
  simp only [Scanner.runAmong, Piece.read?, unreadable, Except.map, Scan.prepend, List.append_nil,
    and_self]

/-- **Faults of a scan are local and come first.** A scan that fails does so at a directive
that cannot be read. Its nodes are those of the source cut off before the `@` of this
directive, where nothing fails; the fault tells the line of the `@`; and compiling fails
with this fault, however the conditionals balance. If the directive ends with a newline,
all of this stays as it is when any other text stands behind it. -/
theorem scan_fault_local {source : String} {fault : Fault}
    (failed : (scan source).fault? = some fault) :
    ∃ before directive after, FailsAt source fault before directive after ∧
      (scan (String.ofList before)).result = .ok (scan source).nodes ∧
      fault.line? = some (1 + newlines before) ∧
      (∀ name, Template.compile name source = .fail ⟨fault, name⟩) ∧
      ('\n' ∈ directive → ∀ other : String,
        (scan (String.ofList (before ++ directive) ++ other)).nodes = (scan source).nodes ∧
        (scan (String.ofList (before ++ directive) ++ other)).fault? = some fault ∧
        ∀ name, Template.compile name (String.ofList (before ++ directive) ++ other) =
          .fail ⟨fault, name⟩) := by
  obtain ⟨taken, left, split, reads, leaves⟩ := exists_taken [] (pieces source.toList)
  have scanned : scan source = Scanner.runAmong (pieces source.toList) (1 + newlines []) := rfl
  rw [← scanned] at reads leaves
  rw [Scan.Leaves, failed] at leaves
  obtain ⟨directive, later, rfl, unreadable⟩ := leaves
  rw [List.nil_append] at unreadable
  obtain ⟨mark, line⟩ : (⟨.directive, directive⟩ : Piece).Fits (later.flatMap Piece.text) :=
    fits_of_split split
  have front := result_of_readsAt reads
  refine ⟨taken.flatMap Piece.text, directive, later.flatMap Piece.text,
    ⟨?_, mark, line, unreadable⟩, ?_, Directive.line?_of_read unreadable,
    Template.compile_of_fault failed, fun newline other => ?_⟩
  · rw [← flatMap_text_pieces source.toList, split, List.flatMap_append, List.flatMap_cons]
  · rw [scan, Scanner.run, Scanner.start, String.toList_ofList, pieces_of_split split]
    exact front
  · have cut : pieces (String.ofList (taken.flatMap Piece.text ++ directive) ++ other).toList =
        taken ++ ⟨.directive, directive⟩ :: pieces other.toList := by
      have same : (directive ++ other.toList).head? = directive.head? := by
        rw [List.head?_append, mark, Option.some_or]
      rw [String.toList_append, String.toList_ofList, List.append_assoc,
        pieces_append_of_split split same, pieces_directive_append mark line newline]
    obtain ⟨nodes, fails⟩ := runAmong_of_unreadable front unreadable (pieces other.toList)
    rw [← cut] at nodes fails
    exact ⟨nodes, fails, Template.compile_of_fault fails⟩

/-- Behind an end without a start and a marker over two lines, a word behind `@else` is to
blame, and what stands behind that line does not count. -/
theorem scan_fault_local_behind_marker :
    (scan "@endif\n\x7b\x7b @a\n\x7d\x7d @else x\n@if").fault? = some (.malformedDirective "x" 3) ∧
      ∃ before directive after,
        FailsAt "@endif\n\x7b\x7b @a\n\x7d\x7d @else x\n@if" (.malformedDirective "x" 3)
          before directive after ∧
        (scan (String.ofList before)).result =
          .ok [⟨1, .endIf⟩, ⟨2, .text "\x7b\x7b @a\n\x7d\x7d "⟩] ∧
        ∀ name, Template.compile name "@endif\n\x7b\x7b @a\n\x7d\x7d @else x\n@if" =
          .fail ⟨.malformedDirective "x" 3, name⟩ := by
  have failed : (scan "@endif\n\x7b\x7b @a\n\x7d\x7d @else x\n@if").fault? =
      some (.malformedDirective "x" 3) := by decide
  have nodes : (scan "@endif\n\x7b\x7b @a\n\x7d\x7d @else x\n@if").nodes =
      [⟨1, .endIf⟩, ⟨2, .text "\x7b\x7b @a\n\x7d\x7d "⟩] := by decide
  obtain ⟨before, directive, after, place, front, _, compiled, _⟩ := scan_fault_local failed
  rw [nodes] at front
  exact ⟨failed, before, directive, after, place, front, compiled⟩

end Source

end Stencil
