import Stencil.Proofs.Scan

/-!
Sources that are put together.

Where a source ends with a line, and its last run has ended on its newline, nothing
is left open: what stands behind it is scanned as if it stood alone, only further
down (`scan_append`). Blanks and whole comment lines are read as nothing, so in
such a place they move later lines and do nothing else
(`runAmong_pieces_filler`).
-/

namespace Stencil

/-! ### Scanning further down -/

/-- The node as it is when the source stands a number of lines further down. -/
def Node.moved (lines : Nat) (node : Node) : Node :=
  { node with line := node.line + lines }

namespace Source

namespace Scan

/-- The scan as it is when the source stands a number of lines further down. -/
def moved (lines : Nat) (scan : Scan) : Scan :=
  ⟨scan.nodes.map (Node.moved lines), scan.fault?.map (Fault.moved lines),
    ⟨scan.rest.ahead, scan.rest.line + lines⟩⟩

/-- The scan with nodes in front of its own. -/
def prepend (nodes : List Node) (scan : Scan) : Scan :=
  { scan with nodes := nodes ++ scan.nodes }

end Scan

/-- Further down the same pieces are scanned as the same, with other lines. -/
theorem runAmong_moved (ahead : List Piece) (line lines : Nat) :
    Scanner.runAmong ahead (line + lines) = (Scanner.runAmong ahead line).moved lines := by
  induction ahead generalizing line with
  | nil => rfl
  | cons piece rest ih =>
    obtain ⟨kind, text⟩ := piece
    have behind : line + lines + newlines text = line + newlines text + lines := by
      rw [Nat.add_right_comm]
    cases kind with
    | gap | comment => simp only [Scanner.runAmong, Piece.read?, behind, ih]
    | run =>
      simp only [Scanner.runAmong, Piece.read?, behind, ih]
      rfl
    | directive =>
      simp only [Scanner.runAmong, Piece.read?, Directive.read_moved, behind, ih]
      cases Directive.read text line <;> rfl

/-- Behind pieces that are read without a fault, the scan goes on with the others. -/
theorem runAmong_append {ahead : List Piece} {line : Nat} {nodes : List Node}
    (scanned : (Scanner.runAmong ahead line).result = .ok nodes) (later : List Piece) :
    Scanner.runAmong (ahead ++ later) line =
      (Scanner.runAmong later (line + newlines (ahead.flatMap Piece.text))).prepend nodes := by
  induction ahead generalizing line nodes with
  | nil =>
    cases scanned
    rfl
  | cons piece rest ih =>
    have behind : line + newlines ((piece :: rest).flatMap Piece.text) =
        line + newlines piece.text + newlines (rest.flatMap Piece.text) := by
      rw [List.flatMap_cons, newlines_append, Nat.add_assoc]
    rw [behind]
    rw [List.cons_append, Scanner.runAmong] at *
    cases read : piece.read? line with
    | none =>
      simp only [read] at scanned ⊢
      exact ih scanned
    | some outcome =>
      cases outcome with
      | error fault =>
        simp only [read] at scanned
        cases scanned
      | ok node =>
        simp only [read] at scanned ⊢
        obtain ⟨following, found, rfl⟩ := Scan.exists_of_result_cons scanned
        rw [ih found]
        rfl

/-! ### Blanks and comments -/

/-- Blanks, and comments through their newline, in any order. -/
inductive Filler : List Char → Prop where
  | nil : Filler []
  | blank {c : Char} {cs : List Char} : Text.isBlank c = true → Filler cs → Filler (c :: cs)
  | comment {body cs : List Char} : '\n' ∉ body → Filler cs →
      Filler ('#' :: (body ++ ['\n']) ++ cs)

theorem Filler.append_of_blank {blank cs : List Char} (blanks : ∀ c ∈ blank, Text.isBlank c = true)
    (filler : Filler cs) : Filler (blank ++ cs) := by
  induction blank with
  | nil => exact filler
  | cons c blank ih =>
    obtain ⟨first, later⟩ := List.forall_mem_cons.mp blanks
    exact .blank first (ih later)

/-- The blanks at the start of a source are read as nothing. -/
theorem runAmong_pieces_dropWhile (cs : List Char) (line : Nat) :
    Scanner.runAmong (pieces cs) line =
      Scanner.runAmong (pieces (cs.dropWhile Text.isBlank))
        (line + newlines (cs.takeWhile Text.isBlank)) := by
  cases cs with
  | nil => rfl
  | cons c cs =>
    by_cases blank : Text.isBlank c = true
    · have kind : Piece.Kind.ofChar c = .gap := if_pos blank
      have entered : Cursor.enter c = .gap := by simp only [Cursor.enter, kind]
      rw [pieces_cons, entered, cutFrom_gap, kind, List.dropWhile_cons_of_pos blank,
        List.takeWhile_cons_of_pos blank]
      rfl
    · rw [List.dropWhile_cons_of_neg blank, List.takeWhile_cons_of_neg blank]
      rfl

theorem runAmong_pieces_blank_cons {c : Char} (blank : Text.isBlank c = true) (cs : List Char)
    (line : Nat) : Scanner.runAmong (pieces (c :: cs)) line =
      Scanner.runAmong (pieces cs) (line + newlines [c]) := by
  rw [runAmong_pieces_dropWhile, runAmong_pieces_dropWhile cs, List.dropWhile_cons_of_pos blank,
    List.takeWhile_cons_of_pos blank, newlines_cons c, Nat.add_assoc]

/-- Blanks and comments in front of a source are read as nothing. -/
theorem runAmong_pieces_filler {filler : List Char} (fills : Filler filler) (cs : List Char)
    (line : Nat) : Scanner.runAmong (pieces (filler ++ cs)) line =
      Scanner.runAmong (pieces cs) (line + newlines filler) := by
  induction fills generalizing line with
  | nil => rfl
  | @blank c filler blank _ ih =>
    rw [List.cons_append, runAmong_pieces_blank_cons blank, ih, newlines_cons c filler,
      Nat.add_assoc]
  | @comment body filler oneLine _ ih =>
    have entered : Cursor.enter '#' = .line := by decide
    have kind : Piece.Kind.ofChar '#' = .comment := by decide
    rw [List.append_assoc, pieces_line_append entered oneLine, kind, newlines_append,
      ← Nat.add_assoc, ← ih]
    rfl

/-! ### Ends of lines -/

/-- The run ends on its newline: no brace is open there, and no backslash protects it. -/
def EndsOnNewline (run : List Char) : Prop :=
  ∃ before, run = before ++ ['\n'] ∧ Cursor.between.behind before = .run 0 false

/-- Nothing is left open at the end of a source: but for blanks at the end, it is cut
into pieces on its own, whatever follows. -/
def Closed (cs : List Char) : Prop :=
  ∃ before blank, cs = before ++ blank ∧ (∀ c ∈ blank, Text.isBlank c = true) ∧
    ∀ later, pieces (cs ++ later) = pieces before ++ pieces (blank ++ later)

/-- A source is closed if a new piece begins behind it anyway. -/
theorem closed_of_between {cs : List Char} (between : Cursor.between.behind cs = .between) :
    Closed cs := by
  refine ⟨cs, [], (List.append_nil cs).symm, List.forall_mem_nil _, fun later => pieces_append ?_⟩
  intro d _
  rw [between]
  exact Option.some_ne_none _

/-- What goes on with a gap is blank. -/
theorem Cursor.blank_of_keeps_gap {cs : List Char} (keeps : gap.Keeps cs) :
    ∀ c ∈ cs, Text.isBlank c = true := by
  induction cs with
  | nil => exact List.forall_mem_nil _
  | cons c cs ih =>
    obtain ⟨goesOn, later⟩ := keeps
    have blank : Text.isBlank c = true := by simpa [begins?] using goesOn
    have stays : gap.next c = gap := by simp only [next, goesOn]
    rw [stays] at later
    exact List.forall_mem_cons.mpr ⟨blank, ih later⟩

/-- A newline that goes on with a comment or directive is the end of it. -/
theorem Cursor.behind_line_of_keeps {cs : List Char} (keeps : line.Keeps (cs ++ ['\n'])) :
    line.behind (cs ++ ['\n']) = between := by
  induction cs with
  | nil => decide
  | cons c cs ih =>
    obtain ⟨_, later⟩ := keeps
    rw [List.cons_append, behind_cons]
    by_cases newline : c = '\n'
    · subst newline
      have ended : line.next '\n' = between := by decide
      rw [ended] at later
      cases cs <;> cases later.1
    · have stays : line.next c = line := by simp [next, begins?, newline]
      rw [stays] at later ⊢
      exact ih later

section LastPiece

variable {before rest : List Char} {c : Char}
  (begins : (Cursor.between.behind before).begins? c ≠ none) (keeps : (Cursor.enter c).Keeps rest)

include begins

theorem closed_of_last_run (ends : EndsOnNewline (c :: rest)) : Closed (before ++ c :: rest) := by
  obtain ⟨run, split, inside⟩ := ends
  have start : Cursor.between.begins? c = some (.ofChar c) := rfl
  have alone : (Cursor.enter c).behind rest = Cursor.between.behind (c :: rest) := by
    rw [Cursor.behind_cons, Cursor.next_of_begins? start]
  apply closed_of_between
  rw [Cursor.behind_append_cons begins, alone, split, Cursor.behind_append, inside]
  decide

include keeps

theorem closed_of_last_gap (gap : Piece.Kind.ofChar c = .gap) : Closed (before ++ c :: rest) := by
  have entered : Cursor.enter c = .gap := by simp only [Cursor.enter, gap]
  rw [entered] at keeps
  have first := Piece.Kind.ofChar_eq_gap_iff.mp gap
  refine ⟨before, c :: rest, rfl,
    List.forall_mem_cons.mpr ⟨first, Cursor.blank_of_keeps_gap keeps⟩, fun later => ?_⟩
  rw [List.append_assoc]
  apply pieces_append
  intro d head
  cases head
  exact begins

theorem closed_of_last_line (entered : Cursor.enter c = .line) {cs : List Char}
    (newline : rest = cs ++ ['\n']) : Closed (before ++ c :: rest) := by
  subst newline
  rw [entered] at keeps
  apply closed_of_between
  rw [Cursor.behind_append_cons begins, entered, Cursor.behind_line_of_keeps keeps]

end LastPiece

/-- A source that ends with a line is closed, if its last run has ended on its newline. -/
theorem closed_of_lines {cs : List Char} {kinds : List Node.Kind}
    (reads : Reads (pieces cs) kinds) (lines : cs = [] ∨ cs.getLast? = some '\n')
    (ended : ∀ text, kinds.getLast? = some (.text text) → EndsOnNewline text.toList) :
    Closed cs := by
  by_cases empty : cs = []
  · subst empty
    exact closed_of_between rfl
  · obtain ⟨before, c, rest, rfl, begins, keeps⟩ := exists_last_piece empty
    have newline : (c :: rest).getLast? = some '\n' := by
      simpa [List.getLast?_append] using lines.resolve_left empty
    -- A newline begins a gap, so behind the first character of any other piece there is more.
    have more (other : Piece.Kind.ofChar c ≠ .gap) : ∃ inner, rest = inner ++ ['\n'] := by
      obtain ⟨inner, split⟩ := List.getLast?_eq_some_iff.mp newline
      cases inner with
      | nil =>
        obtain ⟨rfl, _⟩ := List.cons.inj split
        exact absurd (by decide) other
      | cons d inner => exact ⟨inner, (List.cons.inj split).2⟩
    cases first : Piece.Kind.ofChar c with
    | gap => exact closed_of_last_gap begins keeps first
    | comment | directive =>
      have entered : Cursor.enter c = .line := by simp only [Cursor.enter, first]
      obtain ⟨inner, split⟩ := more (by simp [first])
      exact closed_of_last_line begins keeps entered split
    | run =>
      rw [pieces_append_cons begins keeps, first] at reads
      obtain ⟨earlier, last, _, read, rfl⟩ := reads.exists_of_append
      cases read with
      | run none =>
        cases none
        have ends := ended (String.ofList (c :: rest)) List.getLast?_concat
        rw [String.toList_ofList] at ends
        exact closed_of_last_run begins ends

/-! ### Putting sources together -/

/-- Behind a closed source and blanks or comments, the other source is scanned as if it
stood alone. -/
theorem runAmong_closed_append {cs filler : List Char} {nodes : List Node} (closed : Closed cs)
    (scanned : (Scanner.runAmong (pieces cs) 1).result = .ok nodes) (fills : Filler filler)
    (later : List Char) :
    Scanner.runAmong (pieces (cs ++ (filler ++ later))) 1 =
      ((Scanner.runAmong (pieces later) 1).moved (newlines (cs ++ filler))).prepend nodes := by
  obtain ⟨before, blank, rfl, blanks, cut⟩ := closed
  have alone := cut []
  rw [List.append_nil, List.append_nil] at alone
  rw [alone] at scanned
  obtain ⟨_, _, reads, _, _⟩ := (Reads.of_result scanned).exists_of_append
  obtain ⟨nodes', scanned', _⟩ := reads.exists_result 1
  -- The blanks at the end of the source have added no node.
  have same : nodes' = nodes := by
    have none := runAmong_pieces_filler (Filler.nil.append_of_blank blanks) []
    simp only [List.append_nil] at none
    rw [runAmong_append scanned', none] at scanned
    exact (List.append_nil nodes').symm.trans (Except.ok.inj scanned)
  subst same
  have line : 1 + newlines before + newlines (blank ++ filler) =
      1 + newlines (before ++ blank ++ filler) := by
    rw [Nat.add_assoc, ← newlines_append, List.append_assoc]
  rw [cut, ← List.append_assoc blank, runAmong_append scanned', flatMap_text_pieces,
    runAmong_pieces_filler (fills.append_of_blank blanks), line, runAmong_moved]

/-- **Scanning is compositional where lines end.** Let the first source be scanned without
a fault; let it be empty or end with a newline; and if its last node is a text, let
that run have ended on its newline. Then both sources together are scanned as the
nodes of the first, and behind them the nodes and the fault of the second, as many
lines further down as the first one has newlines. Blanks and whole comment lines
between them move the second source further down and change nothing else. -/
theorem scan_append {first : String} {nodes : List Node}
    (scanned : (scan first).result = .ok nodes)
    (lines : first = "" ∨ first.toList.getLast? = some '\n')
    (ended : ∀ line text, nodes.getLast? = some ⟨line, .text text⟩ → EndsOnNewline text.toList)
    (second : String) :
    (scan (first ++ second)).nodes =
        nodes ++ (scan second).nodes.map (Node.moved (newlines first.toList)) ∧
      (scan (first ++ second)).fault? =
        (scan second).fault?.map (Fault.moved (newlines first.toList)) ∧
      ∀ filler : String, Filler filler.toList →
        (scan (first ++ filler ++ second)).nodes =
          nodes ++ (scan second).nodes.map (Node.moved (newlines (first ++ filler).toList)) ∧
        (scan (first ++ filler ++ second)).fault? =
          (scan second).fault?.map (Fault.moved (newlines (first ++ filler).toList)) := by
  have closed : Closed first.toList := by
    refine closed_of_lines (Reads.of_result scanned) (lines.imp_left ?_) fun text last => ?_
    · rintro rfl
      rfl
    · rw [List.getLast?_map, Option.map_eq_some_iff] at last
      obtain ⟨⟨line, kind⟩, last, rfl⟩ := last
      exact ended line text last
  have together (filler : String) (fills : Filler filler.toList) :
      scan (first ++ filler ++ second) =
        ((scan second).moved (newlines (first ++ filler).toList)).prepend nodes := by
    simp only [scan, Scanner.run, Scanner.start, String.toList_append, List.append_assoc]
    exact runAmong_closed_append closed scanned fills second.toList
  have direct := together "" .nil
  rw [String.append_empty] at direct
  refine ⟨?_, ?_, fun filler fills => ?_⟩
  · rw [direct]
    rfl
  · rw [direct]
    rfl
  · rw [together filler fills]
    exact ⟨rfl, rfl⟩

/-- Behind a run with a closed marker and an escaped backslash, a blank and a comment
move the second source to line 6. -/
theorem scan_append_lines :
    (scan ("# c\n\x7b\x7b k\n\x7d\x7d \\\\\n" ++ " \n# d\n" ++ "  b\n@bad x")).nodes =
        [⟨2, .text "\x7b\x7b k\n\x7d\x7d \\\\\n"⟩, ⟨6, .text "b\n"⟩] ∧
      (scan ("# c\n\x7b\x7b k\n\x7d\x7d \\\\\n" ++ " \n# d\n" ++ "  b\n@bad x")).fault? =
        some (.malformedDirective "@bad" 7) := by
  have scanned : (scan "# c\n\x7b\x7b k\n\x7d\x7d \\\\\n").result =
      .ok [⟨2, .text "\x7b\x7b k\n\x7d\x7d \\\\\n"⟩] := rfl
  have oneLine : '\n' ∉ " d".toList := by decide
  have comment : Filler "# d\n".toList := .comment oneLine .nil
  have fills : Filler " \n# d\n".toList := .blank (by decide) (.blank (by decide) comment)
  refine (scan_append scanned (Or.inr (by decide)) ?_ "  b\n@bad x").2.2 " \n# d\n" fills
  intro line text last
  cases last
  exact ⟨"\x7b\x7b k\n\x7d\x7d \\\\".toList, by decide, by decide⟩

end Source

end Stencil
