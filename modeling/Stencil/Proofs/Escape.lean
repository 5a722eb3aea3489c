import Stencil.Proofs.Markers
import Stencil.Proofs.Scan
import Stencil.Proofs.Walk

/-!
Escaped texts.

A backslash makes the next character stand for itself. If it stands before every
character that means something where it is, a text is written as a source
(`Escapes`) which is cut into runs alone (`spelled_pieces`), and the runs are
filled with the text (`Spelled.exists_nodes`). So the untrimmed render is the text,
whatever the context and the policy (`render_escaped`).
-/

namespace Stencil

/-! ### Writing a text as a source -/

/-- The text is written as the source: each character as it is or behind a backslash.
A backslash stands before every backslash, `@` and `{`, and, where a run could
begin, before every blank and `#`. A run could begin at the start, if `fresh`,
and behind a newline that is written as it is. -/
inductive Escapes : (fresh : Bool) → List Char → List Char → Prop where
  | nil {fresh : Bool} : Escapes fresh [] []
  | escaped {fresh : Bool} {c : Char} {text source : List Char} :
      Escapes false text source → Escapes fresh (c :: text) ('\\' :: c :: source)
  | plain {fresh : Bool} {c : Char} {text source : List Char} :
      c ≠ '\\' → c ≠ '@' → c ≠ '{' →
      (fresh = true → Text.isBlank c = false ∧ c ≠ '#') →
      Escapes (c == '\n') text source → Escapes fresh (c :: text) (c :: source)

/-! ### Runs without markers -/

namespace Marker

theorem segments_backslash (c : Char) (cs : List Char) :
    segments ('\\' :: c :: cs) = .literal c :: segments cs :=
  rfl

/-- A character that is neither a backslash nor an opening brace stands for itself. -/
theorem segments_plain {c : Char} (notBackslash : c ≠ '\\') (notOpening : c ≠ '{')
    (cs : List Char) : segments (c :: cs) = .literal c :: segments cs := by
  have none : atStart? (c :: cs) = .none := by
    unfold atStart?
    split
    · next same => exact absurd (List.cons.inj same).1 notOpening
    · rfl
  exact segmentsFrom_of_plain notBackslash none

/-- Where no key is looked up, filling comes to the characters and reports nothing. -/
theorem fillSegments_literal (policy : MissingKeys) (scope : Scope) (line : Nat)
    (text : List Char) : fillSegments policy scope line (text.map .literal) = pure text := by
  induction text with
  | nil => rfl
  | cons c text ih =>
    rw [List.map_cons, fillSegments, ih]
    rfl

end Marker

namespace Source

/-- The pieces are runs in which every character stands for itself, and together they
come to the text. -/
inductive Spelled : List Piece → List Char → Prop where
  | nil : Spelled [] []
  | run {run chars text : List Char} {rest : List Piece} :
      Marker.segments run = chars.map .literal → Spelled rest text →
      Spelled (⟨.run, run⟩ :: rest) (chars ++ text)

/-- Where the cutting stands in a source that escapes a text: where a run could begin, or
in a run with no brace open. -/
def Cursor.writing (fresh : Bool) : Cursor :=
  if fresh then .between else .run 0 false

/-- Without opening braces a run ends behind its first newline, and no closing brace
changes that. -/
theorem Cursor.afterInRun_plain {c : Char} (notBackslash : c ≠ '\\') (notOpening : c ≠ '{') :
    afterInRun 0 false c = writing (c == '\n') := by
  by_cases newline : c = '\n'
  · subst newline
    decide
  · have other : (c == '\n') = false := beq_false_of_ne newline
    by_cases closing : c = '}'
    · subst closing
      decide
    · simp [afterInRun, writing, notBackslash, notOpening, newline, closing, other]

/-- What still belongs to a run, and the runs behind it, come to the text. -/
def Spells (cut : List Char × List Piece) (text : List Char) : Prop :=
  ∃ chars later, text = chars ++ later ∧ Marker.segments cut.1 = chars.map .literal ∧
    Spelled cut.2 later

/-- What the first character of a run and all behind it come to, they come to as well
where a run goes on with the character. -/
theorem Spells.writing_cons {fresh : Bool} {c : Char} {cs text : List Char}
    (begins : fresh = true → Piece.Kind.ofChar c = .run) (notAt : c ≠ '@')
    (spells : Spells (c :: (cutFrom (Cursor.afterInRun 0 false c) cs).1,
      (cutFrom (Cursor.afterInRun 0 false c) cs).2) text) :
    Spells (cutFrom (.writing fresh) (c :: cs)) text := by
  cases fresh with
  | true =>
    obtain ⟨chars, later, rfl, segments, spelled⟩ := spells
    have run := begins rfl
    have entered : Cursor.enter c = Cursor.afterInRun 0 false c := by simp only [Cursor.enter, run]
    have cut := pieces_cons c cs
    rw [run, entered] at cut
    refine ⟨[], chars ++ later, rfl, ?_, ?_⟩
    · exact congrArg Marker.segments (cutFrom_between_fst (c :: cs))
    · have runs : Spelled (pieces (c :: cs)) (chars ++ later) := by
        rw [cut]
        exact .run segments spelled
      exact runs
  | false =>
    have goesOn : (Cursor.run 0 false).begins? c = none := by simp [Cursor.begins?, notAt]
    have moved : (Cursor.run 0 false).next c = Cursor.afterInRun 0 false c := by
      simp only [Cursor.next, goesOn]
    have cut : cutFrom (.writing false) (c :: cs) =
        (c :: (cutFrom (Cursor.afterInRun 0 false c) cs).1,
          (cutFrom (Cursor.afterInRun 0 false c) cs).2) := by
      simp only [Cursor.writing, Bool.false_eq_true, if_false, cutFrom, goesOn, moved]
    rw [cut]
    exact spells

/-- From where the writing stands, the source comes to the text. -/
theorem spells_cutFrom {fresh : Bool} {text source : List Char}
    (escapes : Escapes fresh text source) : Spells (cutFrom (.writing fresh) source) text := by
  induction escapes with
  | nil => exact ⟨[], [], rfl, rfl, .nil⟩
  | @escaped fresh c text source _ ih =>
    obtain ⟨chars, later, rfl, segments, spelled⟩ := ih
    -- The protected character neither ends the run nor opens a brace.
    have cut : cutFrom (Cursor.afterInRun 0 false '\\') (c :: source) =
        (c :: (cutFrom (.writing false) source).1, (cutFrom (.writing false) source).2) := by
      have goesOn : (Cursor.run 0 true).begins? c = none := by simp [Cursor.begins?]
      have moved : (Cursor.run 0 true).next c = .writing false := by
        simp only [Cursor.next, goesOn]
        rfl
      have protects : Cursor.afterInRun 0 false '\\' = .run 0 true := rfl
      simp only [protects, cutFrom, goesOn, moved]
    apply Spells.writing_cons (fun _ => by decide) (by decide)
    rw [cut]
    refine ⟨c :: chars, later, rfl, ?_, spelled⟩
    rw [Marker.segments_backslash, segments, List.map_cons]
  | @plain fresh c text source notBackslash notAt notOpening visible _ ih =>
    obtain ⟨chars, later, rfl, segments, spelled⟩ := ih
    have begins (atStart : fresh = true) : Piece.Kind.ofChar c = .run := by
      obtain ⟨notBlank, notHash⟩ := visible atStart
      simp [Piece.Kind.ofChar, notBlank, notHash, notAt]
    apply Spells.writing_cons begins notAt
    rw [Cursor.afterInRun_plain notBackslash notOpening]
    refine ⟨c :: chars, later, rfl, ?_, spelled⟩
    rw [Marker.segments_plain notBackslash notOpening, segments, List.map_cons]

theorem spelled_pieces {text source : List Char} (escapes : Escapes true text source) :
    Spelled (pieces source) text := by
  obtain ⟨chars, later, rfl, segments, spelled⟩ := spells_cutFrom escapes
  have none : (cutFrom (.writing true) source).1 = [] := cutFrom_between_fst source
  rw [none] at segments
  obtain rfl : chars = [] := List.map_eq_nil_iff.mp segments.symm
  exact spelled

/-- Runs in which every character stands for itself are text nodes, and where text is
shown, a walk over these writes the characters and does nothing else. -/
theorem Spelled.exists_nodes {ahead : List Piece} {text : List Char} (spelled : Spelled ahead text)
    (line : Nat) :
    ∃ nodes, (Scanner.runAmong ahead line).result = .ok nodes ∧
      (∀ node ∈ nodes, ∃ content, node.kind = .text content) ∧
      ∀ policy progress, progress.chains.isActive = true →
        Progress.walk policy progress nodes =
          pure { progress with output := progress.output ++ String.ofList text } := by
  induction spelled generalizing line with
  | nil =>
    refine ⟨[], rfl, List.forall_mem_nil _, fun policy progress _ => ?_⟩
    simp
  | @run run chars text rest segments _ ih =>
    obtain ⟨nodes, scanned, texts, walked⟩ := ih (line + newlines run)
    refine ⟨⟨line, .text (String.ofList run)⟩ :: nodes, ?_, ?_, fun policy progress active => ?_⟩
    · simp only [Scanner.runAmong, Piece.read?, Scan.result_cons, scanned]
      rfl
    · exact List.forall_mem_cons.mpr ⟨⟨_, rfl⟩, texts⟩
    · have filled : Marker.fill policy progress.scope line (String.ofList run) =
          pure (String.ofList chars) := by
        rw [Marker.fill, String.toList_ofList, segments, Marker.fillSegments_literal]
        rfl
      have written := walked policy
        { progress with output := progress.output ++ String.ofList chars } active
      simp only [Progress.walk_cons, Progress.step, Progress.text, active, if_true, filled,
        pure_bind, written, String.append_assoc, ← String.ofList_append]

end Source

/-- Without directives of chains, nodes balance. -/
theorem Balance.check_of_flat {nodes : List Node}
    (flat : ∀ node ∈ nodes, step [] node = .ok []) : check nodes = .ok () := by
  rw [check_eq_ok_iff_openAfter]
  induction nodes with
  | nil => rfl
  | cons node nodes ih =>
    obtain ⟨stays, later⟩ := List.forall_mem_cons.mp flat
    rw [openAfter_cons, stays]
    exact ih later

/-- Texts alone balance. -/
theorem Balance.check_of_texts {nodes : List Node}
    (texts : ∀ node ∈ nodes, ∃ content, node.kind = .text content) : check nodes = .ok () := by
  apply check_of_flat
  intro node member
  obtain ⟨content, text⟩ := texts node member
  simp only [step, text]

/-- **Backslashes can express every text.** However a text is written with backslashes,
the source compiles to text nodes alone. Whatever the context and the policy, its
untrimmed render is the text, and all that it reports is that it has rendered: no
variable, and as many bytes as the text has. -/
theorem render_escaped {text source : String} (escapes : Escapes true text.toList source.toList)
    (name : Option String) :
    ∃ template, Template.ofSource name source = .ok template ∧
      (∀ node ∈ template.nodes, ∃ content, node.kind = .text content) ∧
      ∀ context policy, template.render context ⟨policy, false⟩ =
        ⟨[.rendered name 0 text.utf8ByteSize], .ok text⟩ := by
  obtain ⟨nodes, scanned, texts, walked⟩ := (Source.spelled_pieces escapes).exists_nodes 1
  have balanced := Balance.check_of_texts texts
  let template : Template := ⟨name, source, nodes, scanned, balanced⟩
  refine ⟨template, template.ofSource_source, texts, fun context policy => ?_⟩
  have written : "" ++ String.ofList text.toList = text := by
    rw [String.empty_append, String.ofList_toList]
  have untrimmed : template.renderUntrimmed context policy =
      ⟨[.rendered name 0 text.utf8ByteSize], .ok text⟩ := by
    rw [Template.renderUntrimmed, walked policy (Progress.start context) rfl, pure_bind]
    simp only [Progress.start, written]
    rfl
  rw [Template.render_eq, untrimmed]
  rfl

/-- A blank and a hash where a run could begin, braces, an `@` and a backslash. -/
theorem render_escaped_marks :
    ∃ template, Template.ofSource none "\\ \n\\#\\\x7bb\x7d\\@\\\\" = .ok template ∧
      ∀ context policy, template.render context ⟨policy, false⟩ =
        ⟨[.rendered none 0 8], .ok " \n#\x7bb\x7d@\\"⟩ := by
  have escapes : Escapes true " \n#\x7bb\x7d@\\".toList "\\ \n\\#\\\x7bb\x7d\\@\\\\".toList :=
    .escaped <| .plain (by decide) (by decide) (by decide) (by decide) <| .escaped <| .escaped <|
      .plain (by decide) (by decide) (by decide) (by decide) <|
      .plain (by decide) (by decide) (by decide) (by decide) <| .escaped <| .escaped .nil
  obtain ⟨template, compiled, _, rendered⟩ := render_escaped escapes none
  exact ⟨template, compiled, rendered⟩

end Stencil
