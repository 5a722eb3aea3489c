import Stencil.Marker.Fill

/-!
Markers in a text that goes on.

What stands behind a text is cut on its own, unless a backslash at the end of the text
protects it or a marker of the text reaches into it (`Apart`, `segments_append`).
A newline neither completes a marker nor keeps one from being read
(`segments_append_newline`), so filling the longer text fills the shorter one and
adds the newline (`result_fill_append_newline`).
-/

namespace Stencil.Marker

/-! ### Backslashes at the end -/

/-- A character behind the text is protected by a backslash, given whether the first
character of the text is. -/
def protectsNext (escaped : Bool) (cs : List Char) : Bool :=
  cs.foldl (fun escaped c => !escaped && c == '\\') escaped

theorem protectsNext_cons (escaped : Bool) (c : Char) (cs : List Char) :
    protectsNext escaped (c :: cs) = protectsNext (!escaped && c == '\\') cs :=
  rfl

theorem protectsNext_append (escaped : Bool) (cs ds : List Char) :
    protectsNext escaped (cs ++ ds) = protectsNext (protectsNext escaped cs) ds := by
  rw [protectsNext, List.foldl_append]
  rfl

/-- Behind a marker nothing is protected, whatever stands in it. -/
theorem protectsNext_written (escaped : Bool) (text : List Char) :
    protectsNext escaped (written text) = false := by
  rw [written, protectsNext_append]
  simp [protectsNext]

/-! ### Segments -/

theorem eq_append_of_keyText? {cs text : List Char} (found : keyText? cs = some text) :
    ∃ rest, cs = text ++ '}' :: '}' :: rest := by
  induction cs using keyText?.induct generalizing text with
  | case1 rest =>
    cases found
    exact ⟨rest, rfl⟩
  | case2 => cases found
  | case3 c cs notClosed notOpened ih =>
    rw [keyText?] at found
    · obtain ⟨behind, later, rfl⟩ := Option.map_eq_some_iff.mp found
      obtain ⟨rest, rfl⟩ := ih later
      exact ⟨rest, rfl⟩
    · exact notClosed
    · exact notOpened
  | case4 => cases found

/-- A marker that is found stands there. -/
theorem eq_append_of_atStart? {cs text : List Char} (found : atStart? cs = some text) :
    ∃ rest, cs = written text ++ rest := by
  unfold atStart? at found
  split at found
  · obtain ⟨rest, rfl⟩ := eq_append_of_keyText? found
    exact ⟨rest, by simp [written]⟩
  · cases found

/-- A text that is not closed stays so when there stands no closing brace behind it and
nothing there could close it. -/
theorem keyText?_append {behind : List Char} (endless : keyText? behind = none)
    (notClosing : ∀ c ∈ behind.head?, c ≠ '}') (cs : List Char) :
    keyText? (cs ++ behind) = keyText? cs := by
  induction cs using keyText?.induct with
  | case1 rest => rfl
  | case2 rest => rfl
  | case3 c cs notClosed notOpened ih =>
    rw [List.cons_append, keyText?, keyText?, ih]
    · exact notClosed
    · exact notOpened
    · rintro rest rfl closing
      cases cs with
      | nil =>
        rw [List.nil_append] at closing
        exact notClosing '}' (by simp [closing]) rfl
      | cons d cs =>
        cases closing
        exact notClosed cs rfl rfl
    · exact notOpened
  | case4 => exact endless

theorem atStart?_eq_none {c d : Char} (other : ¬ (c = '{' ∧ d = '{')) (cs : List Char) :
    atStart? (c :: d :: cs) = none := by
  unfold atStart?
  split
  · next same =>
    obtain ⟨first, later⟩ := List.cons.inj same
    exact absurd ⟨first, (List.cons.inj later).1⟩ other
  · rfl

/-- No marker that begins in a text reaches into what stands behind the text. -/
def Apart (behind : List Char) : Prop :=
  ∀ c cs, atStart? (c :: cs ++ behind) = atStart? (c :: cs)

/-- No marker reaches into a text that cannot close one, be it opened by the character in
front or earlier. -/
theorem apart_of_endless {behind : List Char} (endless : keyText? behind = none)
    (notClosing : ∀ c ∈ behind.head?, c ≠ '}') (unopened : atStart? ('{' :: behind) = none) :
    Apart behind := by
  intro c cs
  cases cs with
  | nil =>
    rw [List.singleton_append]
    by_cases opening : c = '{'
    · subst opening
      rw [unopened]
      rfl
    · cases behind with
      | nil => rfl
      | cons d behind =>
        rw [atStart?_eq_none (fun both => opening both.1)]
        simp [atStart?]
  | cons d cs =>
    by_cases opens : c = '{' ∧ d = '{'
    · obtain ⟨rfl, rfl⟩ := opens
      exact keyText?_append endless notClosing cs
    · rw [List.cons_append, List.cons_append, atStart?_eq_none opens, atStart?_eq_none opens]

theorem segmentsFrom_of_marker {c : Char} {cs text : List Char}
    (found : atStart? (c :: cs) = some text) :
    segmentsFrom 0 (c :: cs) = ofMarker text ++ segmentsFrom (text.length + 3) cs := by
  obtain ⟨rest, split⟩ := eq_append_of_atStart? found
  obtain ⟨rfl, _⟩ := List.cons.inj split
  simp [segmentsFrom, found]

theorem segmentsFrom_of_plain {c : Char} {cs : List Char} (plain : c ≠ '\\')
    (none : atStart? (c :: cs) = .none) :
    segmentsFrom 0 (c :: cs) = .literal c :: segmentsFrom 0 cs := by
  simp [segmentsFrom, plain, none]

/-- What is read as any other character is no backslash. -/
theorem ne_backslash {c : Char} {cs : List Char} (lone : c = '\\' → cs = [] → False)
    (protecting : ∀ d rest, c = '\\' → cs = d :: rest → False) : c ≠ '\\' := by
  rintro rfl
  cases cs with
  | nil => exact lone rfl rfl
  | cons d cs => exact protecting d cs rfl rfl

/-- What no marker reaches into is cut on its own, if the text in front does not protect
it. The characters of a marker that has been read do not protect it either. -/
theorem segmentsFrom_append {behind : List Char} (apart : Apart behind) {pending : Nat}
    {cs : List Char} (fits : pending ≤ cs.length)
    (closed : protectsNext false (cs.drop pending) = false) :
    segmentsFrom pending (cs ++ behind) = segmentsFrom pending cs ++ segments behind := by
  induction pending, cs using segmentsFrom.induct with
  | case1 pending =>
    obtain rfl : pending = 0 := Nat.le_zero.mp fits
    rfl
  | case2 pending c cs ih =>
    exact ih (Nat.le_of_succ_le_succ fits) closed
  | case3 => cases closed
  | case4 c cs ih =>
    have later := ih (Nat.zero_le _) closed
    simp only [List.cons_append, segmentsFrom, later]
  | case5 c cs single double text found ih =>
    -- What is passed over is the marker less its first brace, and behind a marker
    -- nothing is protected.
    obtain ⟨rest, split⟩ := eq_append_of_atStart? found
    have after : cs = (written text).tail ++ rest := (List.cons.inj split).2
    have length : (written text).tail.length = text.length + 3 := by simp [written]
    have found' := found
    rw [← apart] at found'
    have later : segmentsFrom (text.length + 3) (cs ++ behind) =
        segmentsFrom (text.length + 3) cs ++ segments behind := by
      apply ih
      · rw [after, List.length_append, length]
        exact Nat.le_add_right _ _
      · rw [List.drop_zero, split, protectsNext_append, protectsNext_written] at closed
        rwa [after, ← length, List.drop_left]
    rw [List.cons_append] at found' ⊢
    rw [segmentsFrom_of_marker found, segmentsFrom_of_marker found', later, List.append_assoc]
  | case6 c cs single double found ih =>
    have plain := ne_backslash single double
    have unprotected : (c == '\\') = false := beq_false_of_ne plain
    rw [List.drop_zero, protectsNext_cons, unprotected] at closed
    have later := ih (Nat.zero_le _) closed
    have found' := found
    rw [← apart] at found'
    rw [List.cons_append] at found' ⊢
    rw [segmentsFrom_of_plain plain found, segmentsFrom_of_plain plain found', later,
      List.cons_append]

theorem segments_append {cs behind : List Char} (apart : Apart behind)
    (closed : protectsNext false cs = false) :
    segments (cs ++ behind) = segments cs ++ segments behind :=
  segmentsFrom_append apart (Nat.zero_le _) closed

/-- A newline is a segment of its own behind a text that does not protect it. -/
theorem segments_append_newline {cs : List Char} (closed : protectsNext false cs = false) :
    segments (cs ++ ['\n']) = segments cs ++ [.literal '\n'] :=
  segments_append (apart_of_endless rfl (by simp) rfl) closed

/-! ### Filling -/

theorem fillSegments_append (policy : MissingKeys) (scope : Scope) (line : Nat)
    (segments segments' : List Segment) :
    fillSegments policy scope line (segments ++ segments') = do
      let text ← fillSegments policy scope line segments
      let following ← fillSegments policy scope line segments'
      return text ++ following := by
  induction segments with
  | nil => simp [fillSegments]
  | cons segment rest ih =>
    simp only [List.cons_append, fillSegments, ih, bind_assoc, pure_bind, List.append_assoc]

/-- A newline behind a text that does not protect it is filled with itself. -/
theorem result_fill_append_newline {text : String}
    (closed : protectsNext false text.toList = false) (policy : MissingKeys) (scope : Scope)
    (line : Nat) :
    (fill policy scope line (text ++ "\n")).result =
      (fill policy scope line text).result.map (· ++ "\n") := by
  have split : (text ++ "\n").toList = text.toList ++ ['\n'] := String.toList_append
  simp only [fill, split, segments_append_newline closed, fillSegments_append,
    Logged.result_bind]
  cases (fillSegments policy scope line (segments text.toList)).result with
  | error fault => rfl
  | ok filled => simp [Except.bind, Except.map, fillSegments, Segment.fill, String.ofList_append]

end Stencil.Marker
