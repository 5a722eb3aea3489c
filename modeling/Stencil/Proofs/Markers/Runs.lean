import Stencil.Proofs.Escape
import Stencil.Proofs.Markers.Whole

/-!
Markers across runs.

A run ends only where no brace is open, and every closing brace counts; a marker ends at
its first `}}`. As long as no key has two closing braces, a brace is open everywhere in
a marker (`Cursor.keeps_written_of_count`), so no run ends in one, and the segments of
the runs are those of the whole text (`segments_flatMap`). A source of runs alone then
renders to what filling it at once comes to (`render_eq_interpolate`). A run can end in a
marker whose key has two closing braces.
-/

namespace Stencil

namespace Source

/-! ### Braces that are open in a marker -/

/-- While a brace is open, a run goes on, and a character closes one brace at most. -/
theorem Cursor.next_of_open (depth : Nat) (escaped : Bool) (c : Char) :
    (run (depth + 1) escaped).begins? c = none ∧
      ∃ depth' escaped', (run (depth + 1) escaped).next c = run depth' escaped' ∧
        depth + 1 ≤ depth' + [c].count '}' := by
  have goesOn : (run (depth + 1) escaped).begins? c = none := by simp [begins?]
  refine ⟨goesOn, ?_⟩
  simp only [next, goesOn, afterInRun]
  split
  · exact ⟨_, _, rfl, Nat.le_add_right _ _⟩
  · split
    · exact ⟨_, _, rfl, Nat.le_add_right _ _⟩
    · split
      · exact ⟨_, _, rfl, by omega⟩
      · split
        · next closing =>
          subst closing
          exact ⟨_, _, rfl, Nat.le_refl _⟩
        · split
          · next ended => cases ended.2
          · exact ⟨_, _, rfl, Nat.le_add_right _ _⟩

/-- A run goes on with a text that has fewer closing braces than are open. -/
theorem Cursor.keeps_of_count {depth : Nat} {escaped : Bool} {inner : List Char}
    (fewer : inner.count '}' < depth) :
    (run depth escaped).Keeps inner ∧
      ∃ depth' escaped', (run depth escaped).behind inner = run depth' escaped' := by
  induction inner generalizing depth escaped with
  | nil => exact ⟨trivial, depth, escaped, rfl⟩
  | cons c inner ih =>
    obtain ⟨depth, rfl⟩ := Nat.exists_eq_succ_of_ne_zero (Nat.ne_zero_of_lt fewer)
    obtain ⟨goesOn, depth', escaped', moved, left⟩ := next_of_open depth escaped c
    have split : (c :: inner).count '}' = [c].count '}' + inner.count '}' := by
      rw [← List.count_append, List.singleton_append]
    have later : inner.count '}' < depth' := by omega
    rw [Keeps, behind_cons, moved]
    obtain ⟨keeps, behind⟩ := ih later
    exact ⟨⟨goesOn, keeps⟩, behind⟩

/-- Closing braces never end a run, and behind two of them nothing is protected. -/
theorem Cursor.keeps_closing (depth : Nat) (escaped : Bool) :
    (run depth escaped).Keeps ['}', '}'] ∧
      ∃ depth', (run depth escaped).behind ['}', '}'] = run depth' false := by
  have goesOn (depth : Nat) (escaped : Bool) : (run depth escaped).begins? '}' = none := by
    simp [begins?]
  cases escaped with
  | true => exact ⟨⟨goesOn _ _, goesOn _ _, trivial⟩, _, rfl⟩
  | false => exact ⟨⟨goesOn _ _, goesOn _ _, trivial⟩, _, rfl⟩

/-- A run goes on with a marker whose inner text has one closing brace at most. -/
theorem Cursor.keeps_written_of_count (depth : Nat) {inner : List Char}
    (few : inner.count '}' ≤ 1) :
    (run depth false).Keeps (Marker.written inner) ∧
      ∃ depth', (run depth false).behind (Marker.written inner) = run depth' false := by
  have opened : (run depth false).behind ['{', '{'] = run (depth + 2) false := rfl
  have fewer : inner.count '}' < depth + 2 := by omega
  obtain ⟨keeps, depth', escaped, inside⟩ : (run (depth + 2) false).Keeps inner ∧ _ :=
    keeps_of_count fewer
  obtain ⟨closing, closed⟩ := keeps_closing depth' escaped
  have split : Marker.written inner = ['{', '{'] ++ (inner ++ ['}', '}']) := rfl
  rw [split, keeps_append, keeps_append, behind_append, behind_append, opened, inside]
  exact ⟨⟨⟨rfl, rfl, trivial⟩, keeps, closing⟩, closed⟩

/-- A marker on its own is a run, if its inner text has one closing brace at most. -/
theorem pieces_written {inner : List Char} (few : inner.count '}' ≤ 1) :
    pieces (Marker.written inner) = [⟨.run, Marker.written inner⟩] := by
  obtain ⟨_, moved⟩ := Cursor.next_run_of_first (c := '{') (by decide)
  obtain ⟨⟨_, keeps⟩, _⟩ := Cursor.keeps_written_of_count 0 few
  rw [moved] at keeps
  exact pieces_of_keeps keeps

/-- A run goes on with a character that a backslash protects. -/
theorem Cursor.keeps_escaped (depth : Nat) (c : Char) :
    (run depth false).Keeps ['\\', c] ∧ (run depth false).behind ['\\', c] = run depth false := by
  have goesOn : (run depth true).begins? c = none := by simp [begins?]
  have protects : (run depth false).next '\\' = run depth true := rfl
  have moved : (run depth true).next c = run depth false := by
    simp only [next, goesOn]
    rfl
  rw [behind_cons, behind_cons, protects, moved]
  refine ⟨⟨rfl, ?_⟩, rfl⟩
  rw [protects]
  exact ⟨goesOn, trivial⟩

end Source

/-! ### Segments of a run -/

namespace Marker

/-- No key has two closing braces. -/
def NoKeyClosesTwice (list : List Segment) : Prop :=
  ∀ name, .key name ∈ list → name.toList.count '}' ≤ 1

theorem NoKeyClosesTwice.of_append {first second : List Segment}
    (few : NoKeyClosesTwice (first ++ second)) : NoKeyClosesTwice second := by
  intro name member
  exact few name (List.mem_append_right _ member)

theorem NoKeyClosesTwice.of_cons {segment : Segment} {list : List Segment}
    (few : NoKeyClosesTwice (segment :: list)) : NoKeyClosesTwice list := by
  intro name member
  exact few name (List.mem_cons_of_mem _ member)

/-- Where a marker ends does not depend on what follows it. -/
theorem StartsWithMarker.append {cs inner rest : List Char}
    (starts : StartsWithMarker cs inner rest) (following : List Char) :
    StartsWithMarker (written inner ++ following) inner following where
  eq := by simp [written]
  first := by
    intro before after split
    by_cases inside : inner.length ≤ before.length
    · exact inside
    · -- Earlier closing braces would stand in front of whatever follows.
      have here : before ++ ['}', '}'] <+: inner ++ '}' :: '}' :: following :=
        ⟨after, by simp [split]⟩
      have closing : inner ++ ['}'] <+: inner ++ '}' :: '}' :: following :=
        ⟨'}' :: following, by simp⟩
      have shorter : (before ++ ['}', '}']).length ≤ (inner ++ ['}']).length := by
        simp only [List.length_append, List.length_cons, List.length_nil]
        omega
      obtain ⟨more, whole⟩ := List.prefix_of_prefix_length_le here closing shorter
      apply starts.first before (more ++ '}' :: rest)
      calc inner ++ '}' :: '}' :: rest = inner ++ ['}'] ++ '}' :: rest := by simp
        _ = before ++ '}' :: '}' :: (more ++ '}' :: rest) := by simp [← whole]
  notOpened := starts.notOpened

/-- What starts with a marker still does so in front of more. -/
theorem StartsWithMarker.append_right {cs inner rest : List Char}
    (starts : StartsWithMarker cs inner rest) (following : List Char) :
    StartsWithMarker (cs ++ following) inner (rest ++ following) := by
  rw [starts.eq_written_append, List.append_assoc]
  exact starts.append _

theorem segments_of_plain {c : Char} {cs : List Char} (notBackslash : c ≠ '\\')
    (none : ∀ inner rest, ¬ StartsWithMarker (c :: cs) inner rest) :
    segments (c :: cs) = .literal c :: segments cs :=
  segmentsFrom_of_plain notBackslash (atStart?_eq_none_iff.mpr none)

end Marker

namespace Source

open Marker

/-- What goes on with a piece, and what does not, are cut into segments on their own. -/
def CutApart (cursor : Cursor) (cs : List Char) : Prop :=
  segments cs =
    segments (cutFrom cursor cs).1 ++ segments ((cutFrom cursor cs).2.flatMap Piece.text)

theorem cutApart_between (cs : List Char) : CutApart .between cs := by
  have whole : (cutFrom .between cs).2.flatMap Piece.text = cs := flatMap_text_pieces cs
  rw [CutApart, cutFrom_between_fst, whole]
  rfl

theorem cutApart_of_marker {cs inner rest : List Char} (starts : StartsWithMarker cs inner rest)
    (few : inner.count '}' ≤ 1) (later : ∀ depth, CutApart (.run depth false) rest)
    (depth : Nat) : CutApart (.run depth false) cs := by
  obtain ⟨keeps, depth', behind⟩ := Cursor.keeps_written_of_count depth few
  have split := starts.eq_written_append
  rw [CutApart, segments_of_marker starts, split, cutFrom_append_of_keeps keeps, behind,
    segments_of_marker (starts.append _), later depth', List.append_assoc]

/-- A character that begins no marker begins none when the text ends earlier. -/
theorem cutApart_of_plain {c : Char} {cs : List Char} {depth : Nat} (notBackslash : c ≠ '\\')
    (none : ∀ inner rest, ¬ StartsWithMarker (c :: cs) inner rest)
    (later : CutApart (Cursor.afterInRun depth false c) cs) :
    CutApart (.run depth false) (c :: cs) := by
  cases begins : (Cursor.run depth false).begins? c with
  | some kind =>
    rw [CutApart, cutFrom_cons_of_begins? begins, flatMap_text_pieces]
    rfl
  | none =>
    have moved : (Cursor.run depth false).next c = Cursor.afterInRun depth false c := by
      simp only [Cursor.next, begins]
    have whole := flatMap_text_cutFrom (Cursor.afterInRun depth false c) cs
    have noneHere : ∀ inner rest,
        ¬ StartsWithMarker (c :: (cutFrom (Cursor.afterInRun depth false c) cs).1) inner rest := by
      intro inner rest starts
      have longer := starts.append_right
        ((cutFrom (Cursor.afterInRun depth false c) cs).2.flatMap Piece.text)
      rw [List.cons_append, whole] at longer
      exact none _ _ longer
    simp only [CutApart, cutFrom, begins, moved]
    rw [segments_of_plain notBackslash none, segments_of_plain notBackslash noneHere, later,
      List.cons_append]

/-- Wherever a run ends, no marker goes on behind it, if no key has two closing braces. The
induction is on how the text is cut into segments; between them nothing is protected. -/
theorem cutApart_run {cs : List Char} {list : List Segment} (cut : Segmented cs list)
    (few : NoKeyClosesTwice list) (depth : Nat) : CutApart (.run depth false) cs := by
  induction cut generalizing depth with
  | nil => rfl
  | lone => simp [CutApart, cutFrom, Cursor.begins?, segments, segmentsFrom]
  | @escaped c cs list _ ih =>
    obtain ⟨keeps, behind⟩ := Cursor.keeps_escaped depth c
    have later := ih few.of_cons depth
    have whole : '\\' :: c :: cs = ['\\', c] ++ cs := rfl
    rw [CutApart, whole, cutFrom_append_of_keeps keeps, behind]
    simp only [List.cons_append, List.nil_append, segments_backslash]
    rw [later]
  | key starts _ _ ih =>
    have counted := few _ List.mem_cons_self
    rw [String.toList_ofList, Text.count_trim (by decide)] at counted
    exact cutApart_of_marker starts counted (ih few.of_cons) depth
  | @blank cs inner rest list starts blank _ ih =>
    have counted : inner.count '}' ≤ 1 := by
      rw [← Text.count_trim (by decide), blank]
      exact Nat.zero_le 1
    exact cutApart_of_marker starts counted (ih few.of_append) depth
  | @plain c cs list notBackslash none _ ih =>
    apply cutApart_of_plain notBackslash none
    rcases Cursor.afterInRun_eq depth false c with ⟨ended, _⟩ | ⟨depth', inside⟩
    · rw [ended]
      exact cutApart_between cs
    · have unprotected : (c == '\\') = false := beq_false_of_ne notBackslash
      rw [unprotected] at inside
      rw [inside]
      exact ih few.of_cons depth'

/-- The segments of a source of runs are those of its runs. -/
theorem segments_flatMap {cs : List Char} {texts : List String}
    (cut : pieces cs = texts.map fun text => ⟨.run, text.toList⟩)
    (few : NoKeyClosesTwice (segments cs)) :
    segments cs = texts.flatMap fun text => segments text.toList := by
  induction texts generalizing cs with
  | nil =>
    have whole := flatMap_text_pieces cs
    rw [cut] at whole
    rw [← whole]
    rfl
  | cons text texts ih =>
    rw [List.map_cons] at cut
    generalize behind : (texts.map fun text => (⟨.run, text.toList⟩ : Piece)) = later at cut
    have own := cutFrom_run_of_pieces cut
    have rest : (cutFrom (.run 0 false) cs).2.flatMap Piece.text = later.flatMap Piece.text := by
      have split := flatMap_text_cutFrom (.run 0 false) cs
      have whole := flatMap_text_pieces cs
      rw [own] at split
      rw [cut, List.flatMap_cons] at whole
      exact List.append_cancel_left (split.trans whole.symm)
    have apart := cutApart_run (segmented_iff.mpr rfl) few 0
    rw [CutApart, own, rest] at apart
    have cutLater : pieces (later.flatMap Piece.text) = later := by
      have split : pieces cs = [⟨.run, text.toList⟩] ++ later := cut
      exact (eq_pieces_of_append split).symm
    rw [apart] at few
    rw [apart, ih (cutLater.trans behind.symm) few.of_append, List.flatMap_cons]

/-- A source that is scanned into text nodes alone, with nothing skipped, is cut into runs. -/
theorem pieces_of_texts {source : String} {nodes : List Node} {texts : List String}
    (scanned : (scan source).result = .ok nodes) (kinds : nodes.map Node.kind = texts.map .text)
    (whole : texts.flatMap String.toList = source.toList) :
    pieces source.toList = texts.map fun text => ⟨.run, text.toList⟩ := by
  have reads := Reads.of_result scanned
  rw [kinds] at reads
  rw [← flatMap_text_pieces source.toList] at whole
  exact reads.eq_runs (fun piece => text_ne_nil_of_mem_pieces) whole

end Source

/-! ### Renders -/

/-- Where text is shown and keys without a value are ignored, a walk over text nodes writes
what their segments come to. -/
theorem Progress.walk_texts (progress : Progress) (active : progress.chains.isActive = true)
    {nodes : List Node} {texts : List String} (kinds : nodes.map Node.kind = texts.map .text) :
    progress.walk .ignore nodes =
      pure { progress with
        output := progress.output ++ String.ofList (Marker.joined progress.scope
          (texts.flatMap fun text => Marker.segments text.toList)) } := by
  induction texts generalizing progress nodes with
  | nil =>
    rw [List.map_eq_nil_iff.mp kinds]
    simp [Marker.joined]
  | cons text texts ih =>
    obtain ⟨node, later, rfl, first, kinds⟩ := List.map_eq_cons_iff.mp kinds
    have stepped : progress.step .ignore node =
        pure { progress with
          output := progress.output ++ Marker.interpolate progress.scope text } := by
      simp only [step, first, Progress.text, active, if_true, Marker.fill_ignore, pure_bind]
    have written := ih
      { progress with output := progress.output ++ Marker.interpolate progress.scope text }
      active kinds
    rw [walk_cons, stepped, pure_bind, written]
    simp only [Marker.interpolate, Marker.joined, List.flatMap_cons, List.flatMap_append,
      String.ofList_append, String.append_assoc]

/-- If a walk reports nothing, the render comes to what it has written, and reports that. -/
theorem Template.render_of_quiet_walk {template : Template} {context : Value}
    {policy : MissingKeys} {progress : Progress}
    (walked : (Progress.start context).walk policy template.nodes = pure progress) :
    template.render context ⟨policy, false⟩ =
      ⟨[.rendered template.name progress.scope.declared.size progress.output.utf8ByteSize],
        .ok progress.output⟩ := by
  have untrimmed : template.renderUntrimmed context policy =
      ⟨[.rendered template.name progress.scope.declared.size progress.output.utf8ByteSize],
        .ok progress.output⟩ := by
    rw [renderUntrimmed, walked, pure_bind]
    rfl
  rw [render_eq, untrimmed]
  rfl

/-- If a walk only writes, so does the render, and it reports what has been written. -/
theorem Template.render_of_walk {template : Template} {context : Value} {policy : MissingKeys}
    {output : String}
    (walked : (Progress.start context).walk policy template.nodes =
      pure { Progress.start context with output }) :
    template.render context ⟨policy, false⟩ =
      ⟨[.rendered template.name 0 output.utf8ByteSize], .ok output⟩ :=
  render_of_quiet_walk walked

/-- **Cutting into runs is not seen, if no key has two closing braces.** Let a source be
scanned into text nodes alone, with nothing skipped between them, and let no key of the
source have two closing braces. Then it compiles, and whatever the context, its untrimmed
render under `ignore` is what filling the whole source at once comes to. -/
theorem render_eq_interpolate {source : String} {nodes : List Node} {texts : List String}
    (scanned : (Source.scan source).result = .ok nodes)
    (kinds : nodes.map Node.kind = texts.map .text)
    (whole : texts.flatMap String.toList = source.toList)
    (few : Marker.NoKeyClosesTwice (Marker.segments source.toList)) (name : Option String) :
    ∃ template, Template.ofSource name source = .ok template ∧ template.nodes = nodes ∧
      ∀ context, template.render context ⟨.ignore, false⟩ =
        ⟨[.rendered name 0 (Marker.interpolate ⟨context, ∅⟩ source).utf8ByteSize],
          .ok (Marker.interpolate ⟨context, ∅⟩ source)⟩ := by
  have texts_only : ∀ node ∈ nodes, ∃ content, node.kind = .text content := by
    intro node member
    have kind : node.kind ∈ texts.map Node.Kind.text := by
      rw [← kinds]
      exact List.mem_map_of_mem member
    obtain ⟨content, _, same⟩ := List.mem_map.mp kind
    exact ⟨content, same.symm⟩
  have balanced := Balance.check_of_texts texts_only
  have segments := Source.segments_flatMap (Source.pieces_of_texts scanned kinds whole) few
  let template : Template := ⟨name, source, nodes, scanned, balanced⟩
  refine ⟨template, template.ofSource_source, rfl, ?_⟩
  intro context
  have written : "" ++ String.ofList (Marker.joined ⟨context, ∅⟩
      (texts.flatMap fun text => Marker.segments text.toList)) =
        Marker.interpolate ⟨context, ∅⟩ source := by
    rw [String.empty_append, ← segments]
    rfl
  have walked := (Progress.start context).walk_texts rfl kinds
  simp only [Progress.start, written] at walked
  exact Template.render_of_walk walked

/-- Two runs, with a key over two lines that has one closing brace. -/
theorem render_eq_interpolate_single_brace :
    Marker.NoKeyClosesTwice
        (Marker.segments "\x7b\x7b a \x7d\n\x7d\x7d\n\x7b\x7b b \x7d\x7d.".toList) ∧
      ∃ template,
        Template.ofSource none "\x7b\x7b a \x7d\n\x7d\x7d\n\x7b\x7b b \x7d\x7d." =
          .ok template ∧
        template.nodes = [⟨1, .text "\x7b\x7b a \x7d\n\x7d\x7d\n"⟩,
          ⟨3, .text "\x7b\x7b b \x7d\x7d."⟩] ∧
        (template.render (.object [("a \x7d", .string "x"), ("b", .string "y")])
          ⟨.ignore, false⟩).result = .ok "x\ny." := by
  have few : Marker.NoKeyClosesTwice
      (Marker.segments "\x7b\x7b a \x7d\n\x7d\x7d\n\x7b\x7b b \x7d\x7d.".toList) := by
    have cut : Marker.segments "\x7b\x7b a \x7d\n\x7d\x7d\n\x7b\x7b b \x7d\x7d.".toList =
        [.key "a \x7d", .literal '\n', .key "b", .literal '.'] := by decide
    rw [cut]
    intro name member
    simp only [List.mem_cons, reduceCtorEq, Marker.Segment.key.injEq, List.not_mem_nil, or_false,
      false_or] at member
    rcases member with rfl | rfl <;> decide
  have scanned : (Source.scan "\x7b\x7b a \x7d\n\x7d\x7d\n\x7b\x7b b \x7d\x7d.").result =
      .ok [⟨1, .text "\x7b\x7b a \x7d\n\x7d\x7d\n"⟩, ⟨3, .text "\x7b\x7b b \x7d\x7d."⟩] := rfl
  have kinds : [(⟨1, .text "\x7b\x7b a \x7d\n\x7d\x7d\n"⟩ : Node),
      ⟨3, .text "\x7b\x7b b \x7d\x7d."⟩].map Node.kind =
        ["\x7b\x7b a \x7d\n\x7d\x7d\n", "\x7b\x7b b \x7d\x7d."].map .text := rfl
  obtain ⟨template, compiled, nodes, rendered⟩ :=
    render_eq_interpolate scanned kinds (by decide) few none
  refine ⟨few, template, compiled, nodes, ?_⟩
  rw [rendered]
  rfl

/-- A run that ends in a marker: its key has two closing braces, so no brace is open at
the newline. Nothing is skipped, but filling the runs one by one finds no marker, and
filling all at once does. -/
theorem render_ne_interpolate_double_brace :
    ∃ template, Template.ofSource none "\x7b\x7b a \x7d \x7d\n\x7d\x7d" = .ok template ∧
      template.nodes =
        [⟨1, .text "\x7b\x7b a \x7d \x7d\n"⟩, ⟨2, .text "\x7d\x7d"⟩] ∧
      "\x7b\x7b a \x7d \x7d\n" ++ "\x7d\x7d" = "\x7b\x7b a \x7d \x7d\n\x7d\x7d" ∧
      (template.render (.object [("a \x7d \x7d", .string "x")]) ⟨.ignore, false⟩).result =
        .ok "\x7b\x7b a \x7d \x7d\n\x7d\x7d" ∧
      Marker.interpolate ⟨.object [("a \x7d \x7d", .string "x")], ∅⟩
        "\x7b\x7b a \x7d \x7d\n\x7d\x7d" = "x" := by
  have scanned : (Source.scan "\x7b\x7b a \x7d \x7d\n\x7d\x7d").result =
      .ok [⟨1, .text "\x7b\x7b a \x7d \x7d\n"⟩, ⟨2, .text "\x7d\x7d"⟩] := rfl
  let template : Template := ⟨none, _, _, scanned, rfl⟩
  exact ⟨template, template.ofSource_source, rfl, rfl, rfl, rfl⟩

end Stencil
