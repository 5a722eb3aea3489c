import Stencil.Source.Piece

/-!
Pieces of texts that are put together.

Where the next character begins a piece, a source can be cut in two and each part
cut into pieces on its own (`pieces_append`). From the front, the first piece takes
what goes on with its first character (`pieces_cons`), and the rest is cut on its
own (`cutFrom_snd`): a gap takes all blanks (`cutFrom_gap`), a comment or directive
all of its line (`cutFrom_line_fst`). From the end, every source that is not empty
has one piece from some place on (`exists_last_piece`). A newline behind a source
either goes on with that piece or is a gap (`pieces_append_newline`), and behind
it an `@` begins a directive, unless braces are open or a backslash protects it.
-/

namespace Stencil.Source

namespace Cursor

/-- Where cutting stands behind a text. -/
def behind (cursor : Cursor) (cs : List Char) : Cursor :=
  cs.foldl next cursor

@[simp] theorem behind_nil (cursor : Cursor) : cursor.behind [] = cursor :=
  rfl

theorem behind_cons (cursor : Cursor) (c : Char) (cs : List Char) :
    cursor.behind (c :: cs) = (cursor.next c).behind cs :=
  rfl

theorem behind_append (cursor : Cursor) (cs ds : List Char) :
    cursor.behind (cs ++ ds) = (cursor.behind cs).behind ds :=
  List.foldl_append

/-- Wherever a character begins a piece, its kind is the one that its first
character tells. -/
theorem eq_ofChar_of_begins? {cursor : Cursor} {c : Char} {kind : Piece.Kind}
    (begins : cursor.begins? c = some kind) : kind = .ofChar c := by
  cases cursor with
  | between =>
    cases begins
    rfl
  | gap =>
    simp only [begins?] at begins
    split at begins
    · cases begins
    · cases begins
      rfl
  | line => cases begins
  | run depth escaped =>
    simp only [begins?] at begins
    split at begins
    · next directive =>
      obtain ⟨rfl, _⟩ := directive
      cases begins
      decide
    · cases begins

theorem next_of_begins? {cursor : Cursor} {c : Char} {kind : Piece.Kind}
    (begins : cursor.begins? c = some kind) : cursor.next c = enter c := by
  simp only [next, begins]

end Cursor

/-- Gaps are what blanks begin. -/
theorem Piece.Kind.ofChar_eq_gap_iff {c : Char} : ofChar c = .gap ↔ Text.isBlank c = true := by
  unfold ofChar
  split
  · next blank => simp [blank]
  · next other =>
    constructor
    · intro gap
      split at gap
      · cases gap
      · split at gap <;> cases gap
    · intro blank
      exact absurd blank other

/-! ### Cutting in two -/

theorem cutFrom_cons_of_begins? {cursor : Cursor} {c : Char} {kind : Piece.Kind}
    (begins : cursor.begins? c = some kind) (cs : List Char) :
    cutFrom cursor (c :: cs) = ([], pieces (c :: cs)) := by
  have same := Cursor.eq_ofChar_of_begins? begins
  have start : Cursor.between.begins? c = some (.ofChar c) := rfl
  simp only [pieces, cutFrom, begins, start, Cursor.next_of_begins? begins,
    Cursor.next_of_begins? start, same]

/-- If the second text begins a piece, cutting both is cutting each. -/
theorem cutFrom_append {cursor : Cursor} {cs ds : List Char}
    (begins : ∀ d ∈ ds.head?, (cursor.behind cs).begins? d ≠ none) :
    cutFrom cursor (cs ++ ds) = ((cutFrom cursor cs).1, (cutFrom cursor cs).2 ++ pieces ds) := by
  induction cs generalizing cursor with
  | nil =>
    cases ds with
    | nil => rfl
    | cons d ds =>
      obtain ⟨kind, some⟩ := Option.ne_none_iff_exists'.mp (begins d rfl)
      exact cutFrom_cons_of_begins? some ds
  | cons c cs ih =>
    simp only [List.cons_append, cutFrom, ih begins]
    cases cursor.begins? c <;> rfl

theorem pieces_append {cs ds : List Char}
    (begins : ∀ d ∈ ds.head?, (Cursor.between.behind cs).begins? d ≠ none) :
    pieces (cs ++ ds) = pieces cs ++ pieces ds := by
  rw [pieces, cutFrom_append begins]
  rfl

/-! ### One piece after the other -/

/-- What does not go on with the piece that is being cut is cut on its own. -/
theorem cutFrom_snd (cursor : Cursor) (cs : List Char) :
    (cutFrom cursor cs).2 = pieces (cs.drop (cutFrom cursor cs).1.length) := by
  induction cs generalizing cursor with
  | nil => rfl
  | cons c cs ih =>
    cases begins : cursor.begins? c with
    | none =>
      simp only [cutFrom, begins, List.length_cons, List.drop_succ_cons]
      exact ih _
    | some kind => rw [cutFrom_cons_of_begins? begins, List.length_nil, List.drop_zero]

/-- The first piece takes what goes on with its first character. -/
theorem pieces_cons (c : Char) (cs : List Char) :
    pieces (c :: cs) = ⟨.ofChar c, c :: (cutFrom (Cursor.enter c) cs).1⟩ ::
      (cutFrom (Cursor.enter c) cs).2 := by
  have begins : Cursor.between.begins? c = some (.ofChar c) := rfl
  simp only [pieces, cutFrom, begins, Cursor.next_of_begins? begins]

/-- All pieces from some place on are the pieces of the text from there on. -/
theorem eq_pieces_of_append {cs : List Char} {before later : List Piece}
    (split : pieces cs = before ++ later) : later = pieces (later.flatMap Piece.text) := by
  induction before generalizing cs with
  | nil =>
    rw [List.nil_append] at split
    rw [← split, flatMap_text_pieces]
  | cons piece before ih =>
    cases cs with
    | nil => cases split
    | cons c cs =>
      rw [pieces_cons, cutFrom_snd, List.cons_append] at split
      exact ih (List.cons.inj split).2

/-- Behind the text in front of a later piece, the first character of that piece begins one,
whatever follows it. -/
theorem begins_of_split {cursor : Cursor} {cs : List Char} {before after : List Piece}
    {piece : Piece} (split : (cutFrom cursor cs).2 = before ++ piece :: after) :
    ∀ d ∈ piece.text.head?,
      (cursor.behind ((cutFrom cursor cs).1 ++ before.flatMap Piece.text)).begins? d ≠ none := by
  induction cs generalizing cursor before with
  | nil =>
    intro d _
    cases before <;> cases split
  | cons c cs ih =>
    cases begins : cursor.begins? c with
    | none =>
      simp only [cutFrom, begins] at split ⊢
      exact ih split
    | some kind =>
      simp only [cutFrom, begins] at split ⊢
      intro d first
      cases before with
      | nil =>
        obtain ⟨rfl, _⟩ := List.cons.inj split
        obtain rfl := Option.some.inj first
        rw [List.flatMap_nil, List.append_nil, Cursor.behind_nil, begins]
        exact Option.some_ne_none kind
      | cons earlier before =>
        obtain ⟨rfl, later⟩ := List.cons.inj split
        exact ih later d first

/-- The pieces in front of a piece are the pieces of the text in front of it. -/
theorem pieces_of_split {cs : List Char} {before after : List Piece} {piece : Piece}
    (split : pieces cs = before ++ piece :: after) :
    pieces (before.flatMap Piece.text) = before := by
  have begins := begins_of_split split
  rw [cutFrom_between_fst, List.nil_append] at begins
  have member : piece ∈ pieces cs := by
    rw [split]
    exact List.mem_append_right _ List.mem_cons_self
  obtain ⟨c, rest, text⟩ := List.exists_cons_of_ne_nil (text_ne_nil_of_mem_pieces member)
  have head : ((piece :: after).flatMap Piece.text).head? = piece.text.head? := by
    rw [List.flatMap_cons, text]
    rfl
  rw [← head] at begins
  have whole := pieces_append begins
  rw [← List.flatMap_append, ← split, flatMap_text_pieces, ← eq_pieces_of_append split] at whole
  exact List.append_cancel_right (whole.symm.trans split)

/-- The pieces in front of a piece depend on nothing behind its first character: any text
that begins with it is cut on its own behind them. -/
theorem pieces_append_of_split {cs ds : List Char} {before after : List Piece} {piece : Piece}
    (split : pieces cs = before ++ piece :: after) (same : ds.head? = piece.text.head?) :
    pieces (before.flatMap Piece.text ++ ds) = before ++ pieces ds := by
  have begins := begins_of_split split
  rw [cutFrom_between_fst, List.nil_append, ← same] at begins
  rw [pieces_append begins, pieces_of_split split]

/-- A gap takes all blanks. -/
theorem cutFrom_gap (cs : List Char) :
    cutFrom .gap cs = (cs.takeWhile Text.isBlank, pieces (cs.dropWhile Text.isBlank)) := by
  induction cs with
  | nil => rfl
  | cons c cs ih =>
    by_cases blank : Text.isBlank c = true
    · have goesOn : Cursor.gap.begins? c = none := by simp [Cursor.begins?, blank]
      have stays : Cursor.gap.next c = .gap := by simp only [Cursor.next, goesOn]
      simp only [cutFrom, goesOn, stays, ih, List.takeWhile_cons_of_pos blank,
        List.dropWhile_cons_of_pos blank]
    · have begins : Cursor.gap.begins? c = some (.ofChar c) := by simp [Cursor.begins?, blank]
      rw [cutFrom_cons_of_begins? begins, List.takeWhile_cons_of_neg blank,
        List.dropWhile_cons_of_neg blank]

/-- A text through its first newline, or all of it if there is none. -/
def throughNewline (cs : List Char) : List Char :=
  cs.takeWhile (· ≠ '\n') ++ (cs.dropWhile (· ≠ '\n')).take 1

@[simp] theorem throughNewline_newline (cs : List Char) :
    throughNewline ('\n' :: cs) = ['\n'] := by
  simp [throughNewline]

theorem throughNewline_cons {c : Char} (other : c ≠ '\n') (cs : List Char) :
    throughNewline (c :: cs) = c :: throughNewline cs := by
  simp [throughNewline, other]

theorem throughNewline_append {cs : List Char} (oneLine : '\n' ∉ cs) (later : List Char) :
    throughNewline (cs ++ '\n' :: later) = cs ++ ['\n'] := by
  induction cs with
  | nil => exact throughNewline_newline later
  | cons c cs ih =>
    rw [List.mem_cons, not_or] at oneLine
    rw [List.cons_append, throughNewline_cons (Ne.symm oneLine.1), ih oneLine.2, List.cons_append]

/-- What ends with the first newline has none before. -/
theorem exists_throughNewline_eq (cs : List Char) :
    ∃ line, '\n' ∉ line ∧ (throughNewline cs = line ∨ throughNewline cs = line ++ ['\n']) := by
  induction cs with
  | nil => exact ⟨[], List.not_mem_nil, Or.inl rfl⟩
  | cons c cs ih =>
    by_cases newline : c = '\n'
    · subst newline
      exact ⟨[], List.not_mem_nil, Or.inr (throughNewline_newline cs)⟩
    · obtain ⟨line, single, ended⟩ := ih
      refine ⟨c :: line, List.not_mem_cons_of_ne_of_not_mem (Ne.symm newline) single, ?_⟩
      rw [throughNewline_cons newline]
      exact ended.imp (congrArg (c :: ·)) (congrArg (c :: ·))

/-- Up to a newline, the end of the line does not count. -/
theorem takeWhile_throughNewline {holds : Char → Bool} (stops : holds '\n' = false)
    (cs : List Char) :
    (throughNewline cs).takeWhile holds = cs.takeWhile holds ∧
      (throughNewline cs).dropWhile holds = throughNewline (cs.dropWhile holds) := by
  induction cs with
  | nil => exact ⟨rfl, rfl⟩
  | cons c cs ih =>
    by_cases newline : c = '\n'
    · subst newline
      simp [stops]
    · rw [throughNewline_cons newline]
      cases here : holds c with
      | true => simp [here, ih]
      | false => simp [here, throughNewline_cons newline]

/-- A comment or directive goes on through the end of its line. -/
theorem cutFrom_line_fst (cs : List Char) : (cutFrom .line cs).1 = throughNewline cs := by
  induction cs with
  | nil => rfl
  | cons c cs ih =>
    by_cases newline : c = '\n'
    · subst newline
      have ends : Cursor.line.next '\n' = .between := by decide
      have goesOn : Cursor.line.begins? '\n' = none := rfl
      simp only [cutFrom, goesOn, ends, cutFrom_between_fst, throughNewline_newline]
    · have stays : Cursor.line.next c = .line := by simp [Cursor.next, Cursor.begins?, newline]
      have goesOn : Cursor.line.begins? c = none := rfl
      simp only [cutFrom, goesOn, stays, ih, throughNewline_cons newline]

/-- A comment or directive that ends with its line is a piece on its own. -/
theorem pieces_line_append {mark : Char} (entered : Cursor.enter mark = .line) {cs : List Char}
    (oneLine : '\n' ∉ cs) (later : List Char) :
    pieces (mark :: (cs ++ ['\n']) ++ later) =
      ⟨.ofChar mark, mark :: (cs ++ ['\n'])⟩ :: pieces later := by
  have line : throughNewline (cs ++ ['\n'] ++ later) = cs ++ ['\n'] := by
    rw [List.append_assoc]
    exact throughNewline_append oneLine later
  rw [List.cons_append, pieces_cons, entered, cutFrom_snd, cutFrom_line_fst, line, List.drop_left]

/-! ### The last piece -/

/-- No character of the text begins a piece, so all of it goes on with the piece that
is being cut. -/
def Cursor.Keeps (cursor : Cursor) : List Char → Prop
  | [] => True
  | c :: cs => cursor.begins? c = none ∧ (cursor.next c).Keeps cs

theorem Cursor.keeps_append {cursor : Cursor} {cs ds : List Char} :
    cursor.Keeps (cs ++ ds) ↔ cursor.Keeps cs ∧ (cursor.behind cs).Keeps ds := by
  induction cs generalizing cursor with
  | nil => simp [Keeps]
  | cons c cs ih => simp only [List.cons_append, Keeps, ih, and_assoc, behind_cons]

/-- What goes on with the piece that is being cut belongs to it, and the cutting goes on
behind it. -/
theorem cutFrom_append_of_keeps {cursor : Cursor} {cs : List Char} (keeps : cursor.Keeps cs)
    (ds : List Char) :
    cutFrom cursor (cs ++ ds) =
      (cs ++ (cutFrom (cursor.behind cs) ds).1, (cutFrom (cursor.behind cs) ds).2) := by
  induction cs generalizing cursor with
  | nil => rfl
  | cons c cs ih =>
    obtain ⟨none, later⟩ := keeps
    simp only [List.cons_append, cutFrom, ih later, none, Cursor.behind_cons]

theorem cutFrom_of_keeps {cursor : Cursor} {cs : List Char} (keeps : cursor.Keeps cs) :
    cutFrom cursor cs = (cs, []) := by
  have whole := cutFrom_append_of_keeps keeps []
  rwa [List.append_nil, cutFrom, List.append_nil] at whole

/-- What is no longer than what goes on with the piece that is being cut goes on with it. -/
theorem keeps_of_length_le {cursor : Cursor} {cs ds : List Char}
    (within : cs.length ≤ (cutFrom cursor (cs ++ ds)).1.length) : cursor.Keeps cs := by
  induction cs generalizing cursor with
  | nil => exact trivial
  | cons c cs ih =>
    cases begins : cursor.begins? c with
    | some kind =>
      rw [List.cons_append, cutFrom_cons_of_begins? begins] at within
      exact absurd within (Nat.not_succ_le_zero _)
    | none =>
      simp only [List.cons_append, cutFrom, begins, List.length_cons] at within
      exact ⟨begins, ih (Nat.le_of_succ_le_succ within)⟩

/-- A character and all that goes on with the piece that it begins. -/
theorem pieces_of_keeps {c : Char} {cs : List Char} (keeps : (Cursor.enter c).Keeps cs) :
    pieces (c :: cs) = [⟨.ofChar c, c :: cs⟩] := by
  have begins : Cursor.between.begins? c = some (.ofChar c) := rfl
  simp only [pieces, cutFrom, begins, Cursor.next_of_begins? begins, cutFrom_of_keeps keeps]

/-- The last piece of a text begins at some place. If there is none, the text goes on
with the piece that is being cut. -/
theorem keeps_or_exists_begins (cursor : Cursor) (cs : List Char) :
    cursor.Keeps cs ∨
      ∃ before c rest, cs = before ++ c :: rest ∧ (cursor.behind before).begins? c ≠ none ∧
        (Cursor.enter c).Keeps rest := by
  induction cs generalizing cursor with
  | nil => exact Or.inl trivial
  | cons c cs ih =>
    rcases ih (cursor.next c) with keeps | ⟨before, d, rest, rfl, begins, keeps⟩
    · cases begins : cursor.begins? c with
      | none => exact Or.inl ⟨begins, keeps⟩
      | some kind =>
        rw [Cursor.next_of_begins? begins] at keeps
        refine Or.inr ⟨[], c, cs, rfl, ?_, keeps⟩
        rw [Cursor.behind_nil, begins]
        exact Option.some_ne_none kind
    · exact Or.inr ⟨c :: before, d, rest, rfl, begins, keeps⟩

/-- A source that is not empty ends with a piece. -/
theorem exists_last_piece {cs : List Char} (nonempty : cs ≠ []) :
    ∃ before c rest, cs = before ++ c :: rest ∧
      (Cursor.between.behind before).begins? c ≠ none ∧ (Cursor.enter c).Keeps rest := by
  rcases keeps_or_exists_begins .between cs with keeps | last
  · cases cs with
    | nil => exact absurd rfl nonempty
    | cons c cs => cases keeps.1
  · exact last

/-- Behind the last piece the cutting stands where it stands behind that piece alone. -/
theorem Cursor.behind_append_cons {cursor : Cursor} {before : List Char} {c : Char}
    (begins : (cursor.behind before).begins? c ≠ none) (rest : List Char) :
    cursor.behind (before ++ c :: rest) = (enter c).behind rest := by
  obtain ⟨kind, found⟩ := Option.ne_none_iff_exists'.mp begins
  rw [behind_append, behind_cons, next_of_begins? found]

/-- The last piece of a source stands behind the pieces of the text before it. -/
theorem pieces_append_cons {before rest : List Char} {c : Char}
    (begins : (Cursor.between.behind before).begins? c ≠ none)
    (keeps : (Cursor.enter c).Keeps rest) :
    pieces (before ++ c :: rest) = pieces before ++ [⟨.ofChar c, c :: rest⟩] := by
  have head : ∀ d ∈ (c :: rest).head?, (Cursor.between.behind before).begins? d ≠ none := by
    intro d first
    cases first
    exact begins
  rw [pieces_append head, pieces_of_keeps keeps]

/-! ### A newline behind a source -/

/-- No brace is open in a run, and no backslash protects what comes next. -/
def Cursor.Settled : Cursor → Prop
  | .run depth escaped => depth = 0 ∧ escaped = false
  | _ => True

instance (cursor : Cursor) : Decidable cursor.Settled :=
  match cursor with
  | .run depth escaped => inferInstanceAs (Decidable (depth = 0 ∧ escaped = false))
  | .between | .gap | .line => inferInstanceAs (Decidable True)

example : (Cursor.between.behind "\x7b\x7bk\x7d\x7d\\\\".toList).Settled ∧
    ¬ (Cursor.between.behind "\x7b".toList).Settled ∧
    ¬ (Cursor.between.behind "a\\".toList).Settled := by decide

/-- Behind a newline on its own, an `@` begins a directive. -/
theorem Cursor.begins?_at_behind_newline {cursor : Cursor} (settled : cursor.Settled) :
    (cursor.next '\n').begins? '@' ≠ none := by
  cases cursor with
  | between | gap | line => decide
  | run depth escaped =>
    obtain ⟨rfl, rfl⟩ := settled
    decide

/-- A directive behind a source and a newline is cut on its own. -/
theorem pieces_append_directive {cs later : List Char}
    (settled : (Cursor.between.behind cs).Settled) (directive : later.head? = some '@') :
    pieces (cs ++ ['\n'] ++ later) = pieces (cs ++ ['\n']) ++ pieces later := by
  apply pieces_append
  intro d first
  rw [directive] at first
  cases first
  rw [Cursor.behind_append]
  exact Cursor.begins?_at_behind_newline settled

/-- Where a piece has not ended, a newline goes on with it. -/
theorem Cursor.begins?_newline {cursor : Cursor} (inside : cursor ≠ .between) :
    cursor.begins? '\n' = none := by
  cases cursor with
  | between => exact absurd rfl inside
  | gap | line => decide
  | run depth escaped => simp [begins?]

/-- Between pieces a newline is a gap; elsewhere it goes on with the last piece. -/
theorem pieces_append_newline (cs : List Char) :
    pieces (cs ++ ['\n']) = pieces cs ++ [⟨.gap, ['\n']⟩] ∨
      ∃ before c rest, pieces cs = before ++ [⟨.ofChar c, c :: rest⟩] ∧
        pieces (cs ++ ['\n']) = before ++ [⟨.ofChar c, c :: (rest ++ ['\n'])⟩] ∧
        (Cursor.enter c).Keeps rest ∧
        (Cursor.enter c).behind rest = Cursor.between.behind cs := by
  by_cases between : Cursor.between.behind cs = .between
  · refine Or.inl (pieces_append fun d first => ?_)
    rw [between]
    exact Option.some_ne_none _
  · right
    have nonempty : cs ≠ [] := by
      rintro rfl
      exact between rfl
    obtain ⟨before, c, rest, rfl, begins, keeps⟩ := exists_last_piece nonempty
    have reached : (Cursor.enter c).behind rest = Cursor.between.behind (before ++ c :: rest) :=
      (Cursor.behind_append_cons begins rest).symm
    have goesOn : (Cursor.enter c).Keeps (rest ++ ['\n']) := by
      refine Cursor.keeps_append.mpr ⟨keeps, Cursor.begins?_newline ?_, trivial⟩
      rwa [reached]
    refine ⟨pieces before, c, rest, pieces_append_cons begins keeps, ?_, keeps, reached⟩
    rw [List.append_assoc, List.cons_append]
    exact pieces_append_cons begins goesOn

end Stencil.Source
