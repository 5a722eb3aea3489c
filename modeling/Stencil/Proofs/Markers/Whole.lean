import Stencil.Proofs.Markers.Grammar
import Stencil.Proofs.Scan

/-!
Markers of a run.

A source is cut into runs by counting single braces and honouring backslashes
everywhere; a text is cut into segments by looking for `{{` and the first `}}`, and
inside a marker no backslash counts. The two agree on every marker whose inner text has
neither braces nor backslashes. Where a run goes on with the first brace of such a
marker, it goes on through the last one, and as many braces are open behind it as
before (`Cursor.keeps_written`, `run_eq_of_reached`). No marker before it reaches into
it, so the text in front and the text behind are filled on their own, and the key
between them (`Marker.fill_written`, `run_keeps_marker`).
-/

namespace Stencil

/-- The inner text of a marker has neither braces nor backslashes. -/
def Marker.Plain (inner : List Char) : Prop :=
  ∀ c ∈ inner, c ≠ '{' ∧ c ≠ '}' ∧ c ≠ '\\'

namespace Source

/-! ### Braces of a run -/

/-- While braces are open, a run goes on with any text that has neither braces nor
backslashes, newlines and `@` among it. -/
theorem Cursor.keeps_plain (depth : Nat) {inner : List Char} (plain : Marker.Plain inner) :
    (run (depth + 1) false).Keeps inner ∧
      (run (depth + 1) false).behind inner = run (depth + 1) false := by
  induction inner with
  | nil => exact ⟨trivial, rfl⟩
  | cons c inner ih =>
    obtain ⟨⟨notOpening, notClosing, notBackslash⟩, later⟩ := List.forall_mem_cons.mp plain
    have goesOn : (run (depth + 1) false).begins? c = none := by simp [begins?]
    have stays : (run (depth + 1) false).next c = run (depth + 1) false := by
      simp [next, goesOn, afterInRun, notOpening, notClosing, notBackslash]
    obtain ⟨keeps, inside⟩ := ih later
    refine ⟨⟨goesOn, ?_⟩, ?_⟩
    · rwa [stays]
    · rwa [behind_cons, stays]

/-- A run goes on with a marker, and behind it as many braces are open as before. -/
theorem Cursor.keeps_written (depth : Nat) {inner : List Char} (plain : Marker.Plain inner) :
    (run depth false).Keeps (Marker.written inner) ∧
      (run depth false).behind (Marker.written inner) = run depth false := by
  obtain ⟨keeps, inside⟩ := keeps_plain (depth + 1) plain
  have opened : (run depth false).behind ['{', '{'] = run (depth + 1 + 1) false := rfl
  have closed : (run (depth + 1 + 1) false).behind ['}', '}'] = run depth false := rfl
  have split : Marker.written inner = ['{', '{'] ++ (inner ++ ['}', '}']) := rfl
  rw [split]
  constructor
  · rw [keeps_append, keeps_append, opened, inside]
    exact ⟨⟨rfl, rfl, trivial⟩, keeps, rfl, rfl, trivial⟩
  · rw [behind_append, behind_append, opened, inside, closed]

/-- The first run of a text is what goes on with a run from its start. -/
theorem cutFrom_run_of_pieces {cs run : List Char} {later : List Piece}
    (cut : pieces cs = ⟨.run, run⟩ :: later) : (cutFrom (.run 0 false) cs).1 = run := by
  cases cs with
  | nil => cases cut
  | cons c cs =>
    rw [pieces_cons] at cut
    obtain ⟨first, _⟩ := List.cons.inj cut
    obtain ⟨kind, text⟩ := Piece.mk.inj first
    obtain ⟨goesOn, moved⟩ := Cursor.next_run_of_first kind
    simp only [cutFrom, goesOn, moved, text]

/-- A run that reaches the first brace of a marker goes on through the last one. -/
theorem run_eq_of_reached {before inner after run : List Char} {later : List Piece}
    (cut : pieces (before ++ (Marker.written inner ++ after)) = ⟨.run, run⟩ :: later)
    (reached : before.length < run.length) (unprotected : Marker.protectsNext false before = false)
    (plain : Marker.Plain inner) :
    ∃ depth, (Cursor.run 0 false).behind before = .run depth false ∧
      (Cursor.run 0 false).behind (before ++ Marker.written inner) = .run depth false ∧
      run = before ++ (Marker.written inner ++ (cutFrom (.run depth false) after).1) := by
  have whole := cutFrom_run_of_pieces cut
  have split : before ++ (Marker.written inner ++ after) =
      before ++ ['{'] ++ ('{' :: inner ++ ['}', '}'] ++ after) := by
    simp [Marker.written]
  have within : (before ++ ['{']).length ≤ run.length := by
    rw [List.length_append]
    exact reached
  rw [← whole, split] at within
  obtain ⟨keeps, opening⟩ := Cursor.keeps_append.mp (keeps_of_length_le within)
  rcases Cursor.behind_run_of_keeps keeps with ⟨ended, _⟩ | ⟨depth, inside⟩
  · -- If the run had ended, the brace would begin another one.
    rw [ended] at opening
    cases opening.1
  · rw [unprotected] at inside
    obtain ⟨keepsMarker, closed⟩ := Cursor.keeps_written depth plain
    refine ⟨depth, inside, ?_, ?_⟩
    · rw [Cursor.behind_append, inside, closed]
    · rw [← whole, cutFrom_append_of_keeps keeps, inside, cutFrom_append_of_keeps keepsMarker,
        closed]

end Source

/-! ### Segments around a marker -/

namespace Marker

/-- No marker reaches into one that stands behind it. -/
theorem apart_written (inner rest : List Char) : Apart (written inner ++ rest) :=
  apart_of_endless rfl (by simp [written]) rfl

/-- Without closing braces in it, the inner text ends at the first ones. -/
theorem startsWithMarker_written {inner : List Char} (notOpened : '{' ∉ inner)
    (notClosed : '}' ∉ inner) (rest : List Char) :
    StartsWithMarker (written inner ++ rest) inner rest where
  eq := by simp [written]
  first before after split := by
    rcases List.append_eq_append_iff.mp split with ⟨more, rfl, _⟩ | ⟨more, rfl, closing⟩
    · rw [List.length_append]
      exact Nat.le_add_right _ _
    · cases more with
      | nil => simp
      | cons c more =>
        obtain ⟨rfl, _⟩ := List.cons.inj closing
        exact absurd (by simp) notClosed
  notOpened := notOpened

theorem segments_written {inner : List Char} (plain : Plain inner) (visible : Text.trim inner ≠ [])
    {before : List Char} (unprotected : protectsNext false before = false) (rest : List Char) :
    segments (before ++ (written inner ++ rest)) =
      segments before ++ .key (String.ofList (Text.trim inner)) :: segments rest := by
  have notOpened : '{' ∉ inner := fun opening => (plain _ opening).1 rfl
  have notClosed : '}' ∉ inner := fun closing => (plain _ closing).2.1 rfl
  have key : Segmented (written inner ++ rest)
      (.key (String.ofList (Text.trim inner)) :: segments rest) :=
    .key (startsWithMarker_written notOpened notClosed rest) visible (segmented_iff.mpr rfl)
  rw [segments_append (apart_written inner rest) unprotected, ← key.eq_segments]

/-- Filling replaces the marker by what its key comes to, and fills what stands in front
and behind on its own. -/
theorem fill_written {inner : List Char} (plain : Plain inner) (visible : Text.trim inner ≠ [])
    {before : List Char} (unprotected : protectsNext false before = false) (rest : List Char)
    (policy : MissingKeys) (scope : Scope) (line : Nat) :
    fill policy scope line (String.ofList (before ++ (written inner ++ rest))) = do
      let front ← fill policy scope line (String.ofList before)
      let value ← (Segment.key (String.ofList (Text.trim inner))).fill policy scope line
      let back ← fill policy scope line (String.ofList rest)
      return front ++ String.ofList value ++ back := by
  rw [fill, String.toList_ofList, segments_written plain visible unprotected,
    fillSegments_append, fillSegments]
  simp only [fill, String.toList_ofList, bind_assoc, pure_bind, String.ofList_append,
    String.append_assoc]

end Marker

/-- **Every well-formed marker reaches filling whole and is replaced.** Let a run of a source
have reached `{{`, an inner text that is not blank and has neither braces nor
backslashes, and `}}`, with no backslash in front that protects it. Then the run goes on
through the last brace, as many braces are open behind the marker as before it, and
filling the text of the run's node replaces exactly this marker by what its trimmed inner
text comes to as a key: its text in the scope, or what the policy makes of a key without
one. -/
theorem run_keeps_marker {source : String} {earlier later : List Source.Piece}
    {run before inner after : List Char}
    (cut : Source.pieces source.toList = earlier ++ ⟨.run, run⟩ :: later)
    (occurs : run ++ later.flatMap Source.Piece.text = before ++ (Marker.written inner ++ after))
    (reached : before.length < run.length)
    (unprotected : Marker.protectsNext false before = false)
    (visible : Text.trim inner ≠ []) (plain : Marker.Plain inner) :
    ∃ rest depth, run = before ++ (Marker.written inner ++ rest) ∧
      (Source.Cursor.run 0 false).behind before = .run depth false ∧
      (Source.Cursor.run 0 false).behind (before ++ Marker.written inner) = .run depth false ∧
      ∀ line, ∃ text,
        Source.Piece.read? ⟨.run, run⟩ line = some (.ok ⟨line, .text text⟩) ∧
        ∀ policy scope,
          (Marker.fill policy scope line text = do
            let front ← Marker.fill policy scope line (String.ofList before)
            let value ←
              (Marker.Segment.key (String.ofList (Text.trim inner))).fill policy scope line
            let back ← Marker.fill policy scope line (String.ofList rest)
            return front ++ String.ofList value ++ back) ∧
          (∀ shown, scope.display? (String.ofList (Text.trim inner)) = some shown →
            Marker.fill policy scope line text = do
              let front ← Marker.fill policy scope line (String.ofList before)
              let back ← Marker.fill policy scope line (String.ofList rest)
              return front ++ shown ++ back) ∧
          (scope.display? (String.ofList (Text.trim inner)) = none →
            Marker.fill policy scope line text = do
              let front ← Marker.fill policy scope line (String.ofList before)
              let nothing ← Marker.missing policy line (String.ofList (Text.trim inner))
              let back ← Marker.fill policy scope line (String.ofList rest)
              return front ++ String.ofList nothing ++ back) := by
  have alone := (Source.eq_pieces_of_append cut).symm
  rw [List.flatMap_cons, occurs] at alone
  obtain ⟨depth, inside, closed, whole⟩ :=
    Source.run_eq_of_reached alone reached unprotected plain
  refine ⟨_, depth, whole, inside, closed, fun line => ⟨_, rfl, fun policy scope => ?_⟩⟩
  rw [whole]
  have filled := Marker.fill_written plain visible unprotected
    (Source.cutFrom (.run depth false) after).1 policy scope line
  refine ⟨filled, fun shown found => ?_, fun lacking => ?_⟩
  · simp only [filled, Marker.Segment.fill, found, pure_bind, String.ofList_toList]
  · simp only [filled, Marker.Segment.fill, lacking]

/-- Behind an escaped brace, a stray one and one that stays open, a marker with an `@` and a
newline in it is kept whole, and so is what follows. With a text for its key the run
comes to `{}{v@if`. -/
theorem run_keeps_marker_behind_braces :
    ∃ rest depth,
      "\\\x7b\x7d\x7b\x7b\x7b @a\n\x7d\x7d@if".toList =
        "\\\x7b\x7d\x7b".toList ++ (Marker.written " @a\n".toList ++ rest) ∧
      (Source.Cursor.run 0 false).behind "\\\x7b\x7d\x7b".toList = .run depth false ∧
      (Source.Cursor.run 0 false).behind
        ("\\\x7b\x7d\x7b".toList ++ Marker.written " @a\n".toList) = .run depth false ∧
      ∀ line, ∃ text,
        Source.Piece.read? ⟨.run, "\\\x7b\x7d\x7b\x7b\x7b @a\n\x7d\x7d@if".toList⟩ line =
          some (.ok ⟨line, .text text⟩) ∧
        (∀ policy scope,
          Marker.fill policy scope line text = do
            let front ← Marker.fill policy scope line (String.ofList "\\\x7b\x7d\x7b".toList)
            let value ←
              (Marker.Segment.key (String.ofList (Text.trim " @a\n".toList))).fill policy scope line
            let back ← Marker.fill policy scope line (String.ofList rest)
            return front ++ String.ofList value ++ back) ∧
        ∀ policy,
          Marker.fill policy ⟨.object [("@a", .string "v")], ∅⟩ line text =
            pure "\x7b\x7d\x7bv@if" := by
  have cut : Source.pieces "#\n\\\x7b\x7d\x7b\x7b\x7b @a\n\x7d\x7d@if".toList =
      [⟨.comment, "#\n".toList⟩] ++
        [⟨.run, "\\\x7b\x7d\x7b\x7b\x7b @a\n\x7d\x7d@if".toList⟩] := by
    decide
  have occurs : "\\\x7b\x7d\x7b\x7b\x7b @a\n\x7d\x7d@if".toList ++
      [].flatMap Source.Piece.text =
        "\\\x7b\x7d\x7b".toList ++ (Marker.written " @a\n".toList ++ "@if".toList) := by
    decide
  have plain : Marker.Plain " @a\n".toList := by simp [Marker.Plain]
  obtain ⟨rest, depth, whole, inside, closed, kept⟩ :=
    run_keeps_marker cut occurs (by decide) (by decide) (by decide) plain
  have follows : rest = "@if".toList := by simpa [Marker.written] using whole.symm
  refine ⟨rest, depth, whole, inside, closed, fun line => ?_⟩
  obtain ⟨text, read, filled⟩ := kept line
  refine ⟨text, read, fun policy scope => (filled policy scope).1, fun policy => ?_⟩
  rw [(filled policy _).2.1 "v" rfl, follows]
  cases policy <;> rfl

end Stencil
