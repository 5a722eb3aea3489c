import Stencil.Proofs.Dependence
import Stencil.Proofs.Markers
import Stencil.Proofs.Policy

/-!
The grammar of markers.

Reading a text from left to right is described by rules that mention nothing but the
text (`Segmented`), and cutting it into segments follows these rules and no others
(`segmented_iff`), so a text has one segmentation. Filling the text goes over its
segments in order: literals stand for themselves, and each key for its value, which is
not read again. Keys without a value stand for nothing; in order, they are what is
reported (`fill_warn`), and the first one is what strict filling fails for
(`fill_by_grammar`).
-/

namespace Stencil.Marker

/-! ### Rules -/

/-- The text begins with a marker: `{{`, an inner text without `{`, and the first `}}`
behind it. The rest stands behind the marker. -/
structure StartsWithMarker (cs inner rest : List Char) : Prop where
  eq : cs = '{' :: '{' :: (inner ++ '}' :: '}' :: rest)
  first : ∀ before after, inner ++ '}' :: '}' :: rest = before ++ '}' :: '}' :: after →
    inner.length ≤ before.length
  notOpened : '{' ∉ inner

/-- The segments of a text, by rules that read it from left to right. -/
inductive Segmented : List Char → List Segment → Prop where
  | nil : Segmented [] []
  /-- A backslash at the very end stands for itself. -/
  | lone : Segmented ['\\'] [.literal '\\']
  /-- A backslash makes the next character literal. -/
  | escaped {c : Char} {cs : List Char} {segments : List Segment} :
      Segmented cs segments → Segmented ('\\' :: c :: cs) (.literal c :: segments)
  /-- A marker is a key, its inner text without the blanks around it. -/
  | key {cs inner rest : List Char} {segments : List Segment} :
      StartsWithMarker cs inner rest → Text.trim inner ≠ [] → Segmented rest segments →
      Segmented cs (.key (String.ofList (Text.trim inner)) :: segments)
  /-- A marker whose inner text is blank is literal as it stands. -/
  | blank {cs inner rest : List Char} {segments : List Segment} :
      StartsWithMarker cs inner rest → Text.trim inner = [] → Segmented rest segments →
      Segmented cs ((written inner).map .literal ++ segments)
  /-- Any other character stands for itself. -/
  | plain {c : Char} {cs : List Char} {segments : List Segment} :
      c ≠ '\\' → (∀ inner rest, ¬ StartsWithMarker (c :: cs) inner rest) →
      Segmented cs segments → Segmented (c :: cs) (.literal c :: segments)

/-! ### Markers at the start -/

theorem keyText?_of_first {inner rest : List Char}
    (first : ∀ before after, inner ++ '}' :: '}' :: rest = before ++ '}' :: '}' :: after →
      inner.length ≤ before.length)
    (notOpened : '{' ∉ inner) : keyText? (inner ++ '}' :: '}' :: rest) = some inner := by
  induction inner with
  | nil => rfl
  | cons c inner ih =>
    rw [List.mem_cons, not_or] at notOpened
    have later : keyText? (inner ++ '}' :: '}' :: rest) = some inner := by
      apply ih
      · intro before after split
        have longer := first (c :: before) after (congrArg (c :: ·) split)
        exact Nat.le_of_succ_le_succ longer
      · exact notOpened.2
    rw [List.cons_append, keyText?, later]
    · rfl
    · rintro after rfl closing
      -- The closing braces would stand at the very start, before those behind the inner text.
      have here := first [] after (congrArg ('}' :: ·) closing)
      exact absurd here (Nat.not_succ_le_zero _)
    · rintro rfl
      exact notOpened.1 rfl

theorem first_of_keyText? {cs inner : List Char} (found : keyText? cs = some inner) :
    (∀ before after, cs = before ++ '}' :: '}' :: after → inner.length ≤ before.length) ∧
      '{' ∉ inner := by
  induction cs using keyText?.induct generalizing inner with
  | case1 rest =>
    cases found
    exact ⟨fun _ _ _ => Nat.zero_le _, List.not_mem_nil⟩
  | case2 => cases found
  | case3 c cs notClosed notOpened ih =>
    rw [keyText?] at found
    · obtain ⟨later, foundLater, rfl⟩ := Option.map_eq_some_iff.mp found
      obtain ⟨first, none⟩ := ih foundLater
      constructor
      · intro before after split
        cases before with
        | nil =>
          obtain ⟨rfl, behind⟩ := List.cons.inj split
          exact absurd behind (notClosed after rfl)
        | cons d before =>
          exact Nat.succ_le_succ (first before after (List.cons.inj split).2)
      · rw [List.mem_cons, not_or]
        exact ⟨fun opening => notOpened opening.symm, none⟩
    · exact notClosed
    · exact notOpened
  | case4 => cases found

/-- What is found at the start is the inner text of the marker there. -/
theorem atStart?_eq_some_iff {cs inner : List Char} :
    atStart? cs = some inner ↔ ∃ rest, StartsWithMarker cs inner rest := by
  constructor
  · intro found
    obtain ⟨rest, split⟩ := eq_append_of_atStart? found
    subst split
    obtain ⟨first, notOpened⟩ := first_of_keyText? found
    refine ⟨rest, ?_, ?_, notOpened⟩
    · simp [written]
    · simpa using first
  · rintro ⟨rest, rfl, first, notOpened⟩
    exact keyText?_of_first first notOpened

theorem atStart?_eq_none_iff {cs : List Char} :
    atStart? cs = none ↔ ∀ inner rest, ¬ StartsWithMarker cs inner rest := by
  rw [Option.eq_none_iff_forall_ne_some]
  simp only [ne_eq, atStart?_eq_some_iff, not_exists]

theorem StartsWithMarker.eq_written_append {cs inner rest : List Char}
    (starts : StartsWithMarker cs inner rest) : cs = written inner ++ rest := by
  rw [starts.eq]
  simp [written]

/-- Behind its first brace a marker has its inner text and three more braces. -/
theorem StartsWithMarker.drop_eq {c : Char} {cs inner rest : List Char}
    (starts : StartsWithMarker (c :: cs) inner rest) : cs.drop (inner.length + 3) = rest := by
  have behind : cs = (written inner).tail ++ rest := (List.cons.inj starts.eq_written_append).2
  have length : (written inner).tail.length = inner.length + 3 := by simp [written]
  rw [← length, behind, List.drop_left]

theorem ofMarker_of_blank {inner : List Char} (blank : Text.trim inner = []) :
    ofMarker inner = (written inner).map .literal := by
  rw [ofMarker, blank]

theorem ofMarker_of_visible {inner : List Char} (visible : Text.trim inner ≠ []) :
    ofMarker inner = [.key (String.ofList (Text.trim inner))] := by
  unfold ofMarker
  split
  · next blank => exact absurd blank visible
  · rfl

/-- A marker is a key or literal, by its inner text. -/
theorem Segmented.marker {cs inner rest : List Char} {segments : List Segment}
    (starts : StartsWithMarker cs inner rest) (later : Segmented rest segments) :
    Segmented cs (ofMarker inner ++ segments) := by
  by_cases blank : Text.trim inner = []
  · rw [ofMarker_of_blank blank]
    exact .blank starts blank later
  · rw [ofMarker_of_visible blank]
    exact .key starts blank later

/-! ### One segmentation -/

/-- The characters of a marker that has been read are passed over. -/
theorem segmentsFrom_eq_drop (pending : Nat) (cs : List Char) :
    segmentsFrom pending cs = segments (cs.drop pending) := by
  induction pending generalizing cs with
  | zero => rfl
  | succ pending ih =>
    cases cs with
    | nil => rfl
    | cons c cs => exact ih cs

theorem segments_of_marker {cs inner rest : List Char} (starts : StartsWithMarker cs inner rest) :
    segments cs = ofMarker inner ++ segments rest := by
  have found := atStart?_eq_some_iff.mpr ⟨rest, starts⟩
  cases cs with
  | nil => cases found
  | cons c cs =>
    rw [segments, segmentsFrom_of_marker found, segmentsFrom_eq_drop, starts.drop_eq]

/-- What the rules allow is what a text is cut into. -/
theorem Segmented.eq_segments {cs : List Char} {list : List Segment} (cut : Segmented cs list) :
    list = segments cs := by
  induction cut with
  | nil => rfl
  | lone => rfl
  | escaped _ ih =>
    rw [ih]
    rfl
  | key starts visible _ ih =>
    rw [segments_of_marker starts, ofMarker_of_visible visible, ih]
    rfl
  | blank starts blank _ ih => rw [segments_of_marker starts, ofMarker_of_blank blank, ih]
  | plain notBackslash none _ ih =>
    rw [segments, segmentsFrom_of_plain notBackslash (atStart?_eq_none_iff.mpr none), ih, segments]

/-- What a text is cut into follows the rules. -/
theorem segmented_segmentsFrom (pending : Nat) (cs : List Char) :
    Segmented (cs.drop pending) (segmentsFrom pending cs) := by
  induction pending, cs using segmentsFrom.induct with
  | case1 pending =>
    rw [List.drop_nil]
    exact .nil
  | case2 pending c cs ih => exact ih
  | case3 => exact .lone
  | case4 c cs ih => exact .escaped ih
  | case5 c cs single double text found ih =>
    obtain ⟨rest, starts⟩ := atStart?_eq_some_iff.mp found
    rw [starts.drop_eq] at ih
    rw [segmentsFrom_of_marker found]
    exact .marker starts ih
  | case6 c cs single double found ih =>
    have plain := ne_backslash single double
    rw [segmentsFrom_of_plain plain found]
    exact .plain plain (atStart?_eq_none_iff.mp found) ih

/-- A text has one segmentation. -/
theorem segmented_iff {cs : List Char} {list : List Segment} :
    Segmented cs list ↔ list = segments cs := by
  constructor
  · exact Segmented.eq_segments
  · rintro rfl
    exact segmented_segmentsFrom 0 cs

/-! ### Filling by segments -/

/-- The keys without a value, in order. -/
def missingKeys (scope : Scope) (segments : List Segment) : List String :=
  (segments.filterMap Segment.key?).filter fun key => (scope.display? key).isNone

/-- The texts of segments, one after the other. -/
def joined (scope : Scope) (segments : List Segment) : List Char :=
  segments.flatMap (Segment.text scope)

theorem missingKeys_cons (scope : Scope) (segment : Segment) (rest : List Segment) :
    missingKeys scope (segment :: rest) =
      missingKeys scope [segment] ++ missingKeys scope rest := by
  rw [missingKeys, ← List.singleton_append, List.filterMap_append, List.filter_append]
  rfl

/-- Under `warn` a segment comes to its text, and is reported if it is a key without a
value. -/
theorem Segment.fill_warn (scope : Scope) (line : Nat) (segment : Segment) :
    segment.fill .warn scope line =
      ⟨(missingKeys scope [segment]).map (.keyMissing · line), .ok (segment.text scope)⟩ := by
  cases segment with
  | literal c => rfl
  | key name =>
    cases found : scope.display? name with
    | none =>
      have reported : missingKeys scope [.key name] = [name] := by
        simp [missingKeys, Segment.key?, found]
      simp only [Segment.fill, Segment.text, found, reported]
      rfl
    | some text =>
      have silent : missingKeys scope [.key name] = [] := by
        simp [missingKeys, Segment.key?, found]
      simp only [Segment.fill, Segment.text, found, silent]
      rfl

theorem fillSegments_warn (scope : Scope) (line : Nat) (segments : List Segment) :
    fillSegments .warn scope line segments =
      ⟨(missingKeys scope segments).map (.keyMissing · line), .ok (joined scope segments)⟩ := by
  induction segments with
  | nil => rfl
  | cons segment rest ih =>
    rw [missingKeys_cons, List.map_append, fillSegments, Segment.fill_warn, ih,
      Logged.bind_of_ok rfl, Logged.bind_of_ok rfl]
    exact congrArg (Logged.mk · _) (congrArg (_ ++ ·) (List.append_nil _))

theorem fill_warn (scope : Scope) (line : Nat) (text : String) :
    fill .warn scope line text =
      ⟨(missingKeys scope (segments text.toList)).map (.keyMissing · line),
        .ok (String.ofList (joined scope (segments text.toList)))⟩ := by
  rw [fill, fillSegments_warn, Logged.bind_of_ok rfl]
  exact congrArg (Logged.mk · _) (List.append_nil _)

/-- **Filling follows the grammar of markers, and never reads a value again.** Every text
has one segmentation, whatever the scope. Filling the text gives the texts of its
segments, one after the other, with values as they are. A key comes to the text of the
variable if one is declared, else to that of the value which the context has at this
path, else to nothing. Keys of the last kind are passed over, or reported in order, or the
first one is what filling fails for. -/
theorem fill_by_grammar (text : String) :
    ∃ list, Segmented text.toList list ∧
      (∀ other, Segmented text.toList other → other = list) ∧
      (∀ scope line,
        fill .ignore scope line text = pure (String.ofList (joined scope list)) ∧
        fill .warn scope line text =
          ⟨(missingKeys scope list).map (.keyMissing · line),
            .ok (String.ofList (joined scope list))⟩ ∧
        fill .error scope line text =
          match (missingKeys scope list).head? with
          | some key => .fail (.missingKey key line)
          | none => pure (String.ofList (joined scope list))) ∧
      (∀ scope, missingKeys scope list = (list.filterMap Segment.key?).filter fun key =>
        (scope.declared.find? key).isNone && (scope.context.resolve? key).isNone) ∧
      ∀ scope key, Segment.text scope (.key key) =
        match scope.declared.find? key, scope.context.resolve? key with
        | some scalar, _ => scalar.display.toList
        | none, some value => value.display.toList
        | none, none => [] := by
  refine ⟨segments text.toList, segmented_iff.mpr rfl, fun other => segmented_iff.mp,
    fun scope line => ⟨fill_ignore scope line text, fill_warn scope line text, ?_⟩,
    fun scope => ?_, fun scope key => ?_⟩
  · rw [Rereading.strict.fill_eq, fill_warn]
    cases missingKeys scope (segments text.toList) with
    | nil => rfl
    | cons key later => rfl
  · simp only [missingKeys, Scope.isNone_display?]
  · cases declared : scope.declared.find? key with
    | some scalar =>
      rw [Segment.text, Scope.display?_of_declared declared]
      rfl
    | none =>
      rw [Segment.text, Scope.display?_of_undeclared declared]
      cases scope.context.resolve? key <;> rfl

/-- What a value holds is not read again. -/
example : interpolate ⟨.object [("a", .string "\\\x7b\x7b b \x7d\x7d")], ∅⟩
    "\x7b\x7b\x7b a \x7d\x7d\x7d" = "\x7b\\\x7b\x7b b \x7d\x7d\x7d" := by decide

end Stencil.Marker
