import Stencil.Proofs.Markers
import Stencil.Proofs.Pieces
import Stencil.Source.Scan

/-!
What pieces are read as.

The lines of a source are told in nodes and faults and have no influence beyond
that: further down a directive is read as the same (`Directive.read_moved`), and
pieces that are read without a fault on one line are read as the same kinds of
nodes on every line (`Reads.of_result`, `Reads.exists_result`). So the kinds of
pieces that stand one behind the other are put together (`Reads.append`), and a
newline behind a source at most makes its last text longer
(`Reads.append_newline`).
-/

namespace Stencil

/-! ### Reading further down -/

/-- The fault as it is when the source stands a number of lines further down. -/
def Fault.moved (lines : Nat) : Fault → Fault
  | .malformedDirective token line => .malformedDirective token (line + lines)
  | .unbalancedConditional keyword line => .unbalancedConditional keyword (line + lines)
  | .unclosedConditional line => .unclosedConditional (line + lines)
  | .invalidCondition condition reason line => .invalidCondition condition reason (line + lines)
  | .missingKey key line => .missingKey key (line + lines)
  | .templateNotFound name => .templateNotFound name
  | .unreadableData reason => .unreadableData reason

/-- What depends on its line only in the fault that it ends with has the same value on
every line, if it has one. -/
theorem eq_ok_of_moved {α : Type} {read : Nat → Except Fault α}
    (moves : ∀ line lines, read (line + lines) = (read line).mapError (Fault.moved lines))
    {line : Nat} {value : α} (found : read line = .ok value) (line' : Nat) :
    read line' = .ok value := by
  have down := moves 0 line
  have down' := moves 0 line'
  rw [Nat.zero_add] at down down'
  rw [found] at down
  cases top : read 0 with
  | error fault =>
    rw [top] at down
    cases down
  | ok value' =>
    rw [top] at down down'
    rw [down', down]
    rfl

theorem Condition.parse_moved (text : String) (line lines : Nat) :
    parse text (line + lines) = (parse text line).mapError (Fault.moved lines) := by
  simp only [parse]
  cases Form.read (Text.trim text.toList) <;> rfl

theorem Condition.parse_of_parse {text : String} {line : Nat} {condition : Condition}
    (parsed : parse text line = .ok condition) (line' : Nat) :
    parse text line' = .ok condition :=
  eq_ok_of_moved (parse_moved text) parsed line'

/-- Blanks in front of a condition do not count. -/
theorem Condition.parse_blank_append {before : List Char}
    (blank : ∀ c ∈ before, Text.isBlank c = true) (text : String) (line : Nat) :
    parse (String.ofList (before ++ text.toList)) line = parse text line := by
  simp only [parse, String.toList_ofList, Text.trim_blank_append blank]

/-- Behind the keyword of a directive, a condition is read as it is alone. -/
theorem Condition.parse_space_cons {text : String} {line : Nat} {condition : Condition}
    (parsed : parse text line = .ok condition) (line' : Nat) :
    parse (String.ofList (' ' :: text.toList)) line' = .ok condition := by
  rw [← List.singleton_append, parse_blank_append Text.isBlank_of_mem_space]
  exact parse_of_parse parsed line'

namespace Directive

theorem readPayload_moved (keyword : Keyword) (payload : List Char) (line lines : Nat) :
    readPayload keyword payload (line + lines) =
      (readPayload keyword payload line).mapError (Fault.moved lines) := by
  have condition (make : Condition → Node.Kind) :
      (Condition.parse (String.ofList payload) (line + lines)).map make =
        ((Condition.parse (String.ofList payload) line).map make).mapError (Fault.moved lines) := by
    rw [Condition.parse_moved]
    cases Condition.parse (String.ofList payload) line <;> rfl
  have bare (made : Node.Kind) : readBare made payload (line + lines) =
      (readBare made payload line).mapError (Fault.moved lines) := by
    simp only [readBare]
    cases Text.firstWord payload <;> rfl
  cases keyword with
  | declare =>
    simp only [readPayload, readDeclaration]
    split <;> rfl
  | ifThen => exact condition .ifThen
  | elseIf => exact condition .elseIf
  | otherwise => exact bare .otherwise
  | endIf => exact bare .endIf

/-- Further down a directive is read as the same, and only the line of a fault moves. -/
theorem read_moved (piece : List Char) (line lines : Nat) :
    read piece (line + lines) = (read piece line).mapError (Fault.moved lines) := by
  simp only [read]
  cases Keyword.ofWord? ((piece.drop 1).takeWhile isWordChar) with
  | none => rfl
  | some keyword => exact readPayload_moved keyword _ line lines

theorem read_of_read {piece : List Char} {line : Nat} {kind : Node.Kind}
    (found : read piece line = .ok kind) (line' : Nat) : read piece line' = .ok kind :=
  eq_ok_of_moved (read_moved piece) found line'

/-- The characters of keywords stand close together. -/
theorem toNat_of_isWordChar {c : Char} (word : isWordChar c = true) :
    0x30 ≤ c.toNat ∧ c.toNat ≤ 0x7A := by
  rcases (Bool.or_eq_true _ _).mp word with alphanum | underscore
  · rcases (Bool.or_eq_true _ _).mp alphanum with alpha | digit
    · rcases (Bool.or_eq_true _ _).mp alpha with upper | lower
      · have ⟨above, below⟩ := of_decide_eq_true upper
        exact ⟨Nat.le_trans (by decide) above, Nat.le_trans below (by decide)⟩
      · have ⟨above, below⟩ := (Bool.and_eq_true _ _).mp lower
        exact ⟨Nat.le_trans (by decide) (of_decide_eq_true above),
          Nat.le_trans (of_decide_eq_true below) (by decide)⟩
    · have ⟨above, below⟩ := (Bool.and_eq_true _ _).mp digit
      exact ⟨of_decide_eq_true above, Nat.le_trans (of_decide_eq_true below) (by decide)⟩
  · obtain rfl := beq_iff_eq.mp underscore
    decide

/-- No blank belongs to a keyword. -/
theorem isWordChar_of_isBlank {c : Char} (blank : Text.isBlank c = true) :
    isWordChar c = false := by
  have apart : Text.blankRanges.all (fun range => range.2 ≤ 0x20 || 0x7F < range.1) = true := by
    decide
  obtain ⟨range, member, inside⟩ := List.any_eq_true.mp blank
  have outside := List.all_eq_true.mp apart range member
  simp only [Bool.and_eq_true, Bool.or_eq_true, decide_eq_true_eq] at inside outside
  refine Bool.eq_false_iff.mpr fun word => ?_
  have within := toNat_of_isWordChar word
  omega

/-- Blanks behind the payload of a directive do not count. -/
theorem readPayload_append_of_blank (keyword : Keyword) (payload : List Char) {after : List Char}
    (blank : ∀ c ∈ after, Text.isBlank c = true) (line : Nat) :
    readPayload keyword (payload ++ after) line = readPayload keyword payload line := by
  have trimmed := Text.trim_append_of_blank blank payload
  cases keyword with
  | declare => simp only [readPayload, readDeclaration, trimmed]
  | ifThen | elseIf => simp only [readPayload, Condition.parse, String.toList_ofList, trimmed]
  | otherwise | endIf => simp only [readPayload, readBare, Text.firstWord_append_of_blank blank]

/-- Blanks behind a directive do not count. -/
theorem read_append_of_blank {piece : List Char} (nonempty : piece ≠ []) {after : List Char}
    (blank : ∀ c ∈ after, Text.isBlank c = true) (line : Nat) :
    read (piece ++ after) line = read piece line := by
  obtain ⟨c, body, rfl⟩ := List.exists_cons_of_ne_nil nonempty
  have ended : after.takeWhile isWordChar = [] ∧ after.dropWhile isWordChar = after := by
    cases after with
    | nil => exact ⟨rfl, rfl⟩
    | cons d after =>
      have other := isWordChar_of_isBlank (blank d List.mem_cons_self)
      simp [other]
  have word : (body ++ after).takeWhile isWordChar = body.takeWhile isWordChar := by
    rw [List.takeWhile_append, ended.1, List.append_nil]
    split
    · next whole => exact ((List.takeWhile_prefix isWordChar).eq_of_length whole).symm
    · rfl
  have payload : (body ++ after).dropWhile isWordChar = body.dropWhile isWordChar ++ after := by
    rw [List.dropWhile_append, ended.2]
    split
    · next none => rw [List.isEmpty_iff.mp none, List.nil_append]
    · rfl
  have first := Text.firstWord_append_of_blank blank (c :: body)
  simp only [read, List.cons_append, List.drop_succ_cons, List.drop_zero, word, payload] at first ⊢
  rw [first]
  split
  · next keyword _ => exact readPayload_append_of_blank keyword _ blank line
  · rfl

theorem read_append_newline (piece : List Char) (line : Nat) :
    read (piece ++ ['\n']) line = read piece line := by
  cases piece with
  | nil => rfl
  | cons c body =>
    exact read_append_of_blank (List.cons_ne_nil c body) Text.isBlank_of_mem_newline line

/-- A directive is read by its keyword, if something else than a keyword goes on
behind it. -/
theorem read_of_word (keyword : Keyword) {payload : List Char}
    (ends : ∀ c ∈ payload.head?, isWordChar c = false) (line : Nat) :
    read ('@' :: (keyword.word.toList ++ payload)) line = readPayload keyword payload line := by
  have none : payload.takeWhile isWordChar = [] := by
    cases payload with
    | nil => rfl
    | cons c payload => simp [ends c rfl]
  have kept : payload.dropWhile isWordChar = payload := by
    cases payload with
    | nil => rfl
    | cons c payload => simp [ends c rfl]
  have word : keyword.word.toList.all isWordChar = true := by
    cases keyword <;> decide
  have chars : ∀ c ∈ keyword.word.toList, isWordChar c = true := List.all_eq_true.mp word
  have found : Keyword.ofWord? keyword.word.toList = some keyword := by
    cases keyword <;> decide
  simp only [read, List.drop_succ_cons, List.drop_zero, List.takeWhile_append_of_pos chars, none,
    List.append_nil, found, List.dropWhile_append_of_pos chars, kept]

/-- A keyword ends at a space. -/
theorem isWordChar_head?_space (cs : List Char) :
    ∀ c ∈ (' ' :: cs).head?, isWordChar c = false := by
  intro c head
  obtain rfl := Option.some.inj head
  decide

theorem newline_not_mem_space_cons {cs : List Char} (oneLine : '\n' ∉ cs) : '\n' ∉ ' ' :: cs := by
  rw [List.mem_cons, not_or]
  exact ⟨by decide, oneLine⟩

/-- What stands behind the name of a declaration is its value, between blanks. -/
theorem readDeclaration_of_name {name : List Char} (nonempty : name ≠ [])
    (oneWord : ∀ c ∈ name, Text.isBlank c = false) (value : List Char) (line : Nat) :
    readDeclaration (' ' :: (name ++ ' ' :: value)) line =
      .ok (.declare (String.ofList name) (.parse (String.ofList (Text.trim value)))) := by
  have visible : ∀ c ∈ name, (!Text.isBlank c) = true := by
    intro c member
    rw [oneWord c member, Bool.not_false]
  have trimmed : Text.trim (' ' :: (name ++ ' ' :: value)) = name ++ Text.trimEnd (' ' :: value) :=
    (Text.trim_blank_append Text.isBlank_of_mem_space _).trans
      (Text.trim_append_of_trimmed (Text.trimmed_of_visible oneWord) nonempty _)
  have behind : (Text.trimEnd (' ' :: value)).takeWhile (fun c => !Text.isBlank c) = [] ∧
      (Text.trimEnd (' ' :: value)).dropWhile (fun c => !Text.isBlank c) =
        Text.trimEnd (' ' :: value) := by
    cases ended : Text.trimEnd (' ' :: value) with
    | nil => exact ⟨rfl, rfl⟩
    | cons c rest =>
      have kept : Text.trimEnd (' ' :: value) ≠ [] := by
        rw [ended]
        exact List.cons_ne_nil c rest
      have head := Text.head?_trimEnd kept
      rw [ended] at head
      obtain rfl : c = ' ' := Option.some.inj head
      exact ⟨rfl, rfl⟩
  have valueTrimmed : Text.trim (Text.trimEnd (' ' :: value)) = Text.trim value :=
    (Text.trim_trimEnd _).trans (Text.trim_blank_append Text.isBlank_of_mem_space value)
  simp only [readDeclaration, trimmed, List.takeWhile_append_of_pos visible,
    List.dropWhile_append_of_pos visible, behind, List.append_nil, nonempty, if_false, valueTrimmed]

/-- No directive is read as text. -/
theorem read_ne_text (piece : List Char) (line : Nat) (text : String) :
    read piece line ≠ .ok (.text text) := by
  have condition {make : Condition → Node.Kind} (other : ∀ condition, make condition ≠ .text text)
      (payload : List Char) :
      (Condition.parse (String.ofList payload) line).map make ≠ .ok (.text text) := by
    intro found
    obtain ⟨condition, _, made⟩ := exists_of_map_eq_ok found
    exact other condition made
  have bare {kind : Node.Kind} (other : kind ≠ .text text) (payload : List Char) :
      readBare kind payload line ≠ .ok (.text text) := by
    intro found
    unfold readBare at found
    split at found
    · exact other (Except.ok.inj found)
    · cases found
  intro found
  simp only [read] at found
  split at found
  · next keyword _ =>
    cases keyword with
    | declare =>
      simp only [readPayload, readDeclaration] at found
      split at found <;> cases found
    | ifThen | elseIf => exact condition (fun _ => Node.Kind.noConfusion) _ found
    | otherwise | endIf => exact bare Node.Kind.noConfusion _ found
  · cases found

end Directive

namespace Source

theorem Scan.result_cons (node : Node) (scan : Scan) :
    (scan.cons node).result = scan.result.map (node :: ·) := by
  simp only [result, cons]
  cases scan.fault? <;> rfl

theorem Scan.exists_of_result_cons {node : Node} {scan : Scan} {nodes : List Node}
    (scanned : (scan.cons node).result = .ok nodes) :
    ∃ later, scan.result = .ok later ∧ nodes = node :: later := by
  rw [result_cons] at scanned
  obtain ⟨later, found, rfl⟩ := exists_of_map_eq_ok scanned
  exact ⟨later, found, rfl⟩

/-! ### The kinds of nodes that pieces are -/

/-- Whatever line they start on, the pieces are read without a fault, as nodes of
these kinds. -/
inductive Reads : List Piece → List Node.Kind → Prop where
  | nil : Reads [] []
  | gap {text : List Char} {rest : List Piece} {kinds : List Node.Kind} :
      Reads rest kinds → Reads (⟨.gap, text⟩ :: rest) kinds
  | comment {text : List Char} {rest : List Piece} {kinds : List Node.Kind} :
      Reads rest kinds → Reads (⟨.comment, text⟩ :: rest) kinds
  | run {text : List Char} {rest : List Piece} {kinds : List Node.Kind} :
      Reads rest kinds → Reads (⟨.run, text⟩ :: rest) (.text (String.ofList text) :: kinds)
  | directive {text : List Char} {rest : List Piece} {kind : Node.Kind}
      {kinds : List Node.Kind} :
      (∀ line, Directive.read text line = .ok kind) → Reads rest kinds →
      Reads (⟨.directive, text⟩ :: rest) (kind :: kinds)

namespace Reads

variable {ahead later : List Piece} {kinds kinds' : List Node.Kind}

theorem append (first : Reads ahead kinds) (second : Reads later kinds') :
    Reads (ahead ++ later) (kinds ++ kinds') := by
  induction first with
  | nil => exact second
  | gap _ ih => exact .gap ih
  | comment _ ih => exact .comment ih
  | run _ ih => exact .run ih
  | directive read _ ih => exact .directive read ih

/-- The line of a directive and what stands behind it are read one after the other. -/
theorem directive_line {keyword : Keyword} {payload later : List Char} {kind : Node.Kind}
    (oneLine : '\n' ∉ payload) (ends : ∀ c ∈ payload.head?, Directive.isWordChar c = false)
    (read : ∀ line, Directive.readPayload keyword payload line = .ok kind)
    (behind : Reads (pieces later) kinds) :
    Reads (pieces ('@' :: (keyword.word.toList ++ payload ++ ['\n']) ++ later))
      (kind :: kinds) := by
  have whole : '\n' ∉ keyword.word.toList ++ payload := by
    have word : '\n' ∉ keyword.word.toList := by cases keyword <;> decide
    rw [List.mem_append, not_or]
    exact ⟨word, oneLine⟩
  have entered : Cursor.enter '@' = .line := by decide
  rw [pieces_line_append entered whole]
  refine .directive ?_ behind
  intro line
  rw [← List.cons_append, Directive.read_append_newline, Directive.read_of_word keyword ends, read]

/-- Pieces that stand one behind the other are read one after the other. -/
theorem exists_of_append (reads : Reads (ahead ++ later) kinds) :
    ∃ first second, Reads ahead first ∧ Reads later second ∧ kinds = first ++ second := by
  induction ahead generalizing kinds with
  | nil => exact ⟨[], kinds, .nil, reads, rfl⟩
  | cons piece ahead ih =>
    rw [List.cons_append] at reads
    cases reads with
    | gap rest =>
      obtain ⟨first, second, before, behind, rfl⟩ := ih rest
      exact ⟨first, second, .gap before, behind, rfl⟩
    | comment rest =>
      obtain ⟨first, second, before, behind, rfl⟩ := ih rest
      exact ⟨first, second, .comment before, behind, rfl⟩
    | run rest =>
      obtain ⟨first, second, before, behind, rfl⟩ := ih rest
      exact ⟨_, second, .run before, behind, rfl⟩
    | directive read rest =>
      obtain ⟨first, second, before, behind, rfl⟩ := ih rest
      exact ⟨_, second, .directive read before, behind, rfl⟩

/-- A scanner yields nodes of the kinds that are read. -/
theorem exists_result (reads : Reads ahead kinds) (line : Nat) :
    ∃ nodes, (Scanner.runAmong ahead line).result = .ok nodes ∧ nodes.map Node.kind = kinds := by
  induction reads generalizing line with
  | nil => exact ⟨[], rfl, rfl⟩
  | gap _ ih | comment _ ih => exact ih _
  | @run text rest kinds _ ih =>
    obtain ⟨nodes, scanned, rfl⟩ := ih (line + newlines text)
    refine ⟨⟨line, .text (String.ofList text)⟩ :: nodes, ?_, rfl⟩
    simp only [Scanner.runAmong, Piece.read?, Scan.result_cons, scanned]
    rfl
  | @directive text rest kind kinds read _ ih =>
    obtain ⟨nodes, scanned, rfl⟩ := ih (line + newlines text)
    refine ⟨⟨line, kind⟩ :: nodes, ?_, rfl⟩
    simp only [Scanner.runAmong, Piece.read?, read, Except.map, Scan.result_cons, scanned]

/-- What a scanner yields without a fault is read on every line. -/
theorem of_result {line : Nat} {nodes : List Node}
    (scanned : (Scanner.runAmong ahead line).result = .ok nodes) :
    Reads ahead (nodes.map Node.kind) := by
  induction ahead generalizing line nodes with
  | nil =>
    cases scanned
    exact .nil
  | cons piece rest ih =>
    obtain ⟨kind, text⟩ := piece
    cases kind with
    | gap => exact .gap (ih scanned)
    | comment => exact .comment (ih scanned)
    | run =>
      obtain ⟨later, behind, rfl⟩ := Scan.exists_of_result_cons scanned
      exact .run (ih behind)
    | directive =>
      simp only [Scanner.runAmong, Piece.read?] at scanned
      cases read : Directive.read text line with
      | error fault =>
        rw [read] at scanned
        cases scanned
      | ok kind =>
        rw [read] at scanned
        obtain ⟨later, behind, rfl⟩ := Scan.exists_of_result_cons scanned
        exact .directive (Directive.read_of_read read) (ih behind)

/-- Text nodes have no more characters than the pieces that they are read from. -/
theorem length_le_of_texts {texts : List String} (reads : Reads ahead (texts.map .text)) :
    (texts.flatMap String.toList).length ≤ (ahead.flatMap Piece.text).length := by
  generalize same : texts.map Node.Kind.text = kinds at reads
  induction reads generalizing texts with
  | nil =>
    rw [List.map_eq_nil_iff.mp same]
    exact Nat.zero_le _
  | gap _ ih | comment _ ih =>
    have shorter := ih same
    rw [List.flatMap_cons, List.length_append]
    omega
  | run _ ih =>
    obtain ⟨text, later, rfl, first, others⟩ := List.map_eq_cons_iff.mp same
    cases first
    have shorter := ih others
    simp only [List.flatMap_cons, List.length_append, String.toList_ofList]
    omega
  | directive read _ _ =>
    obtain ⟨text, later, _, first, _⟩ := List.map_eq_cons_iff.mp same
    cases first
    exact absurd (read 0) (Directive.read_ne_text _ _ _)

/-- If text nodes are all that pieces come to, and have all their characters, the pieces are
runs. -/
theorem eq_runs {texts : List String} (reads : Reads ahead (texts.map .text))
    (nonempty : ∀ piece ∈ ahead, piece.text ≠ [])
    (whole : texts.flatMap String.toList = ahead.flatMap Piece.text) :
    ahead = texts.map fun text => ⟨.run, text.toList⟩ := by
  have skipped {kind : Piece.Kind} {text : List Char} {rest : List Piece} {texts : List String}
      (reads : Reads rest (texts.map .text)) (nonempty : text ≠ [])
      (whole : texts.flatMap String.toList = (⟨kind, text⟩ :: rest).flatMap Piece.text) :
      False := by
    have shorter := reads.length_le_of_texts
    have positive := List.length_pos_iff.mpr nonempty
    simp only [whole, List.flatMap_cons, List.length_append] at shorter
    omega
  generalize same : texts.map Node.Kind.text = kinds at reads
  induction reads generalizing texts with
  | nil =>
    rw [List.map_eq_nil_iff.mp same]
    rfl
  | gap rest _ | comment rest _ =>
    subst same
    exact (skipped rest (nonempty _ List.mem_cons_self) whole).elim
  | run rest ih =>
    obtain ⟨text, later, rfl, first, others⟩ := List.map_eq_cons_iff.mp same
    cases first
    simp only [List.flatMap_cons, String.toList_ofList] at whole
    have runs := ih (List.forall_mem_cons.mp nonempty).2 (List.append_cancel_left whole) others
    rw [runs, List.map_cons, String.toList_ofList]
  | directive read _ _ =>
    obtain ⟨text, later, _, first, _⟩ := List.map_eq_cons_iff.mp same
    cases first
    exact absurd (read 0) (Directive.read_ne_text _ _ _)

end Reads

/-! ### A newline behind a source -/

/-- In a run, a backslash that is not protected itself protects what comes next; where
the run ends, nothing is protected. -/
theorem Cursor.afterInRun_eq (depth : Nat) (escaped : Bool) (c : Char) :
    afterInRun depth escaped c = .between ∧ (!escaped && c == '\\') = false ∨
      ∃ depth', afterInRun depth escaped c = .run depth' (!escaped && c == '\\') := by
  cases escaped with
  | true => exact Or.inr ⟨depth, rfl⟩
  | false =>
    by_cases backslash : c = '\\'
    · subst backslash
      exact Or.inr ⟨depth, rfl⟩
    · have plain : (c == '\\') = false := beq_false_of_ne backslash
      simp only [afterInRun, backslash, plain, Bool.not_false, Bool.true_and, if_false,
        Bool.false_eq_true]
      split
      · exact Or.inr ⟨depth + 1, rfl⟩
      · split
        · exact Or.inr ⟨depth - 1, rfl⟩
        · split
          · exact Or.inl ⟨rfl, trivial⟩
          · exact Or.inr ⟨depth, rfl⟩

/-- Behind what goes on with a run, the run goes on and the next character is protected as
the text says, or the run has ended and nothing is protected. -/
theorem Cursor.behind_run_of_keeps {depth : Nat} {escaped : Bool} {cs : List Char}
    (keeps : (run depth escaped).Keeps cs) :
    (run depth escaped).behind cs = .between ∧ Marker.protectsNext escaped cs = false ∨
      ∃ depth', (run depth escaped).behind cs = .run depth' (Marker.protectsNext escaped cs) := by
  induction cs generalizing depth escaped with
  | nil => exact Or.inr ⟨depth, rfl⟩
  | cons c cs ih =>
    obtain ⟨none, later⟩ := keeps
    have moved : (run depth escaped).next c = afterInRun depth escaped c := by
      simp only [next, none]
    rw [moved] at later
    rw [behind_cons, moved, Marker.protectsNext_cons]
    rcases afterInRun_eq depth escaped c with ⟨ended, unprotected⟩ | ⟨depth', inside⟩
    · rw [ended] at later
      cases cs with
      | nil => exact Or.inl ⟨ended, unprotected⟩
      | cons d cs => cases later.1
    · rw [inside] at later ⊢
      exact ih later

/-- A text that goes on with a run does not protect what comes behind it, if the cutting
says so. -/
theorem Cursor.protectsNext_of_keeps {depth : Nat} {escaped : Bool} {cs : List Char}
    (keeps : (run depth escaped).Keeps cs) (settled : ((run depth escaped).behind cs).Settled) :
    Marker.protectsNext escaped cs = false := by
  rcases behind_run_of_keeps keeps with ⟨_, unprotected⟩ | ⟨depth', inside⟩
  · exact unprotected
  · rw [inside] at settled
    exact settled.2

/-- A run goes on with its first character as if it had been open before it. -/
theorem Cursor.next_run_of_first {c : Char} (first : Piece.Kind.ofChar c = .run) :
    (run 0 false).begins? c = none ∧ (run 0 false).next c = enter c := by
  have none : (run 0 false).begins? c = .none := by
    have other : c ≠ '@' := by
      rintro rfl
      cases first
    simp [begins?, other]
  exact ⟨none, by simp only [next, none, enter, first]⟩

theorem Cursor.protectsNext_of_enter {c : Char} {cs : List Char}
    (first : Piece.Kind.ofChar c = .run) (keeps : (enter c).Keeps cs)
    (settled : ((enter c).behind cs).Settled) :
    Marker.protectsNext false (c :: cs) = false := by
  obtain ⟨none, moved⟩ := next_run_of_first first
  have keepsAll : (run 0 false).Keeps (c :: cs) := by
    refine ⟨none, ?_⟩
    rwa [moved]
  apply protectsNext_of_keeps keepsAll
  rwa [behind_cons, moved]

/-- A newline behind a source changes nothing but the last text, if braces are closed
and no backslash protects it. -/
theorem Reads.append_newline {cs : List Char} {kinds : List Node.Kind}
    (reads : Reads (pieces cs) kinds) (settled : (Cursor.between.behind cs).Settled) :
    Reads (pieces (cs ++ ['\n'])) kinds ∨
      ∃ before text, kinds = before ++ [.text text] ∧
        Marker.protectsNext false text.toList = false ∧
        Reads (pieces (cs ++ ['\n'])) (before ++ [.text (text ++ "\n")]) := by
  rcases pieces_append_newline cs with gap | ⟨ahead, c, rest, cut, longer, keeps, reached⟩
  · left
    rw [gap]
    simpa using reads.append (.gap .nil)
  · rw [cut] at reads
    rw [longer]
    rw [← reached] at settled
    obtain ⟨before, last, first, second, rfl⟩ := reads.exists_of_append
    cases kind : Piece.Kind.ofChar c with
    | gap =>
      rw [kind] at second
      cases second with
      | gap none => exact Or.inl (first.append (.gap none))
    | comment =>
      rw [kind] at second
      cases second with
      | comment none => exact Or.inl (first.append (.comment none))
    | directive =>
      rw [kind] at second
      cases second with
      | directive read none =>
        refine Or.inl (first.append (.directive (fun line => ?_) none))
        rw [← List.cons_append, Directive.read_append_newline, read]
    | run =>
      rw [kind] at second
      cases second with
      | run none =>
        cases none
        refine Or.inr ⟨before, String.ofList (c :: rest), rfl, ?_, ?_⟩
        · rw [String.toList_ofList]
          exact Cursor.protectsNext_of_enter kind keeps settled
        · have text :
              String.ofList (c :: rest) ++ "\n" = String.ofList (c :: (rest ++ ['\n'])) := by
            rw [← List.cons_append, String.ofList_append]
          rw [text]
          exact first.append (.run .nil)

end Source

end Stencil
