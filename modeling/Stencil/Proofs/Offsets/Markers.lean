import Stencil.Proofs.Escape
import Stencil.Proofs.Markers.Grammar
import Stencil.Proofs.Offsets

/-!
Markers by byte offsets.

A text is filled with the offsets of its characters: where an opening brace stands, the text from
there on is looked at, and the text behind two braces is searched for the end of the marker. The
key is cut out between the braces, a marker without a key is copied as a whole, and the characters
of a marker that has been read are passed over by their offsets. All braces have one byte each, so
a marker is found with the size of its key (`markerAt?_eq`), its key and the whole of it are slices
(`fillMarker_eq`), and what is passed over is the marker (`dropWhile_indexed`). Filling comes to
the same as on characters, and no slice slips (`fill_eq`).
-/

namespace Stencil

/-! ### Errors of computations that log -/

namespace Logged

variable {ε ε' α β : Type}

theorem mapError_bind (change : ε → ε') (first : Logged ε α) (next : α → Logged ε β) :
    (first >>= next).mapError change =
      first.mapError change >>= fun value => (next value).mapError change := by
  obtain ⟨events, result⟩ := first
  cases result <;> rfl

/-- A result without events that is there is handed on. -/
theorem ofExcept_ok_bind (value : α) (next : α → Logged ε β) :
    ofExcept (.ok value) >>= next = next value :=
  pure_bind value next

end Logged

namespace Marker

theorem fillSegments_literal_cons (policy : MissingKeys) (scope : Scope) (line : Nat) (c : Char)
    (rest : List Segment) :
    fillSegments policy scope line (.literal c :: rest) = do
      let following ← fillSegments policy scope line rest
      return c :: following :=
  pure_bind _ _

theorem fillSegments_singleton (policy : MissingKeys) (scope : Scope) (line : Nat)
    (segment : Segment) :
    fillSegments policy scope line [segment] = segment.fill policy scope line := by
  simp [fillSegments]

end Marker

namespace Offsets

open Marker (Segment Segmented StartsWithMarker atStart? fillSegments keyText? missing ofMarker
  segments written)

/-! ### Finding a marker -/

/-- The size of the key in front of the first `}}`, if there is one and no `{` comes before it. -/
def markerSize? (inside : String) : Option Nat :=
  (findText? "\x7d\x7d" inside).filter fun closing =>
    (findChar? (· == '{') inside).all fun opening => closing ≤ opening

/-- The size of the key of the marker that the character at an offset begins. -/
def markerAt? (text : String) (place : Nat) (c : Char) : Except Stop (Option Nat) :=
  if c = '{' then do
    let here ← sliceFrom text place
    if ['{', '{'].isPrefixOf here.toList then
      let inside ← sliceFrom text (place + 2)
      return markerSize? inside
    else
      return none
  else
    .ok none

/-- Behind one more character both offsets are found further on. -/
theorem filter_all_map_add (n : Nat) (closing? opening? : Option Nat) :
    ((closing?.map (· + n)).filter fun closing =>
        (opening?.map (· + n)).all fun opening => closing ≤ opening) =
      (closing?.filter fun closing => opening?.all fun opening => closing ≤ opening).map
        (· + n) := by
  cases closing? with
  | none => rfl
  | some closing =>
    cases opening? with
    | none => rfl
    | some opening => by_cases before : closing ≤ opening <;> simp [Option.filter, before]

/-- The end of a marker is found behind its key. -/
theorem markerSize?_eq (inside : String) :
    markerSize? inside = (keyText? inside.toList).map byteSize := by
  rw [markerSize?, findText?, findChar?]
  induction inside.toList using Marker.keyText?.induct with
  | case1 rest =>
    have closing : find? "\x7d\x7d".toList.isPrefixOf ('}' :: '}' :: rest) = some 0 :=
      find?_cons_of_pos rfl
    rw [closing]
    cases find? (fun cs => cs.head?.any (· == '{')) ('}' :: '}' :: rest) <;> rfl
  | case2 rest =>
    have closing : find? "\x7d\x7d".toList.isPrefixOf ('{' :: rest) = _ := find?_cons_of_neg rfl
    have opening : find? (fun cs => cs.head?.any (· == '{')) ('{' :: rest) = some 0 :=
      find?_cons_of_pos rfl
    rw [closing, opening]
    cases find? "\x7d\x7d".toList.isPrefixOf rest <;> rfl
  | case3 c cs notClosed notOpened ih =>
    have closing : "\x7d\x7d".toList.isPrefixOf (c :: cs) = false := by
      rw [Bool.eq_false_iff]
      intro here
      obtain ⟨rest, split⟩ := List.isPrefixOf_iff_prefix.mp here
      obtain ⟨rfl, rfl⟩ := List.cons.inj split
      exact notClosed rest rfl rfl
    have opening : ((c :: cs).head?.any (· == '{')) = false := beq_false_of_ne notOpened
    rw [find?_cons_of_neg closing, find?_cons_of_neg opening, filter_all_map_add, ih, keyText?,
      Option.map_map, Option.map_map]
    · congr 1
      funext key
      exact (Nat.add_comm _ _).trans (byteSize_cons c key).symm
    · exact notClosed
    · exact notOpened
  | case4 => rfl

/-- A marker is its key between four braces. -/
theorem byteSize_written (inner : List Char) : byteSize (written inner) = byteSize inner + 4 := by
  have opening : byteSize ['{', '{'] = 2 := rfl
  have closing : byteSize ['}', '}'] = 2 := rfl
  have split : written inner = ['{', '{'] ++ (inner ++ ['}', '}']) := rfl
  rw [split, byteSize_append, byteSize_append, opening, closing]
  omega

/-- Where a text does not begin with two braces, there is no marker. -/
theorem atStart?_of_not_opened {cs : List Char} (not : ¬ ['{', '{'].isPrefixOf cs = true) :
    atStart? cs = none := by
  rw [Marker.atStart?_eq_none_iff]
  intro inner rest starts
  rw [starts.eq] at not
  exact not rfl

/-- The marker that a character begins is found with the size of its key. -/
theorem markerAt?_eq {text : String} {before cs : List Char} {c : Char}
    (split : text.toList = before ++ c :: cs) :
    markerAt? text (byteSize before) c = .ok ((atStart? (c :: cs)).map byteSize) := by
  rw [markerAt?]
  by_cases opens : ['{', '{'].isPrefixOf (c :: cs) = true
  · obtain ⟨inside, same⟩ := List.isPrefixOf_iff_prefix.mp opens
    obtain ⟨rfl, rfl⟩ := List.cons.inj same
    have behind : text.toList = (before ++ ['{', '{']) ++ inside := by
      rw [split, List.append_assoc]
      rfl
    have cut := sliceFrom_of_split behind
    rw [byteSize_append] at cut
    have place : byteSize before + 2 = byteSize before + byteSize ['{', '{'] := rfl
    rw [if_pos rfl, sliceFrom_of_split split, place, cut]
    simp only [bind, Except.bind, String.toList_ofList, markerSize?_eq]
    rfl
  · rw [atStart?_of_not_opened opens, sliceFrom_of_split split]
    simp only [bind, Except.bind, String.toList_ofList, opens]
    split <;> rfl

/-! ### Filling -/

/-- What a marker at an offset comes to, given the size of its key. -/
def fillMarker (policy : MissingKeys) (scope : Scope) (line : Nat) (text : String)
    (place size : Nat) : Logged Stop (List Char) := do
  let inner ← .ofExcept (slice text (place + 2) (place + 2 + size))
  match Text.trim inner.toList with
  | [] => do
    let marker ← .ofExcept (slice text place (place + 2 + size + 2))
    return marker.toList
  | key =>
    match scope.display? (String.ofList key) with
    | some value => return value.toList
    | none => (missing policy line (String.ofList key)).mapError .fault

/-- What the characters of a text come to from an offset on. -/
def fillFrom (policy : MissingKeys) (scope : Scope) (line : Nat) (text : String) :
    List (Nat × Char) → Logged Stop (List Char)
  | [] => pure []
  | [(_, '\\')] => pure ['\\']
  | (_, '\\') :: (_, c) :: chars => do
    let following ← fillFrom policy scope line text chars
    return c :: following
  | (place, c) :: chars => do
    let size? ← .ofExcept (markerAt? text place c)
    match size? with
    | none => do
      let following ← fillFrom policy scope line text chars
      return c :: following
    | some size => do
      let filled ← fillMarker policy scope line text place size
      let following ← fillFrom policy scope line text
        (chars.dropWhile fun entry => entry.1 < place + 2 + size + 2)
      return filled ++ following
termination_by chars => chars.length
decreasing_by
  all_goals simp only [List.length_cons]
  · omega
  · omega
  · exact Nat.lt_succ_of_le (List.dropWhile_sublist _).length_le

/-- The text that starts on a line, with its markers filled. -/
def fill (policy : MissingKeys) (scope : Scope) (line : Nat) (text : String) :
    Logged Stop String := do
  let filled ← fillFrom policy scope line text (indexed 0 text.toList)
  return String.ofList filled

/-- The key of a marker and the whole of it are slices. -/
theorem fillMarker_eq {text : String} {before cs inner rest : List Char}
    (split : text.toList = before ++ cs) (starts : StartsWithMarker cs inner rest)
    (policy : MissingKeys) (scope : Scope) (line : Nat) :
    fillMarker policy scope line text (byteSize before) (byteSize inner) =
      (fillSegments policy scope line (ofMarker inner)).mapError .fault := by
  have key : slice text (byteSize before + 2) (byteSize before + 2 + byteSize inner) =
      .ok (String.ofList inner) := by
    have inside : text.toList = (before ++ ['{', '{']) ++ (inner ++ '}' :: '}' :: rest) := by
      rw [split, starts.eq, List.append_assoc]
      rfl
    have cut := slice_of_split inside
    rwa [byteSize_append] at cut
  have whole : slice text (byteSize before) (byteSize before + 2 + byteSize inner + 2) =
      .ok (String.ofList (written inner)) := by
    have size : byteSize before + 2 + byteSize inner + 2 =
        byteSize before + byteSize (written inner) := by
      rw [byteSize_written]
      omega
    rw [size]
    exact slice_of_split (by rw [split, starts.eq_written_append])
  rw [fillMarker, key, Logged.ofExcept_ok_bind, whole, Logged.ofExcept_ok_bind, ofMarker,
    String.toList_ofList, String.toList_ofList]
  cases Text.trim inner with
  | nil =>
    simp only [Marker.fillSegments_literal]
    rfl
  | cons c key =>
    simp only [Marker.fillSegments_singleton, Segment.fill]
    cases scope.display? (String.ofList (c :: key)) <;> rfl

/-- What stands in front of an offset is passed over. -/
theorem dropWhile_indexed {place stop : Nat} {cs : List Char} (reaches : place + byteSize cs = stop)
    (ds : List Char) :
    (indexed place (cs ++ ds)).dropWhile (fun entry => entry.1 < stop) = indexed stop ds := by
  induction cs generalizing place with
  | nil =>
    obtain rfl : place = stop := reaches
    cases ds with
    | nil => rfl
    | cons d ds => simp [indexed]
  | cons c cs ih =>
    rw [byteSize_cons, ← Nat.add_assoc] at reaches
    have front : place < stop := by
      have positive := Char.utf8Size_pos c
      omega
    have dropped : decide ((place, c).1 < stop) = true := decide_eq_true front
    rw [List.cons_append, indexed, List.dropWhile_cons, if_pos dropped, ih reaches]

/-- Behind a marker filling goes on behind all of it. -/
theorem dropWhile_passed {c : Char} {cs inner rest : List Char}
    (starts : StartsWithMarker (c :: cs) inner rest) (place : Nat) :
    (indexed (place + c.utf8Size) cs).dropWhile
        (fun entry => entry.1 < place + 2 + byteSize inner + 2) =
      indexed (place + byteSize (written inner)) rest := by
  have whole := starts.eq_written_append
  have stop : place + 2 + byteSize inner + 2 = place + byteSize (written inner) := by
    rw [byteSize_written]
    omega
  obtain ⟨rfl, rfl⟩ := List.cons.inj whole
  have reaches : place + '{'.utf8Size + byteSize (written inner).tail =
      place + byteSize (written inner) := by
    rw [Nat.add_assoc, ← byteSize_cons]
    rfl
  rw [stop]
  exact dropWhile_indexed reaches rest

section

variable {policy : MissingKeys} {scope : Scope} {line : Nat} {text : String}
  {before cs inner rest : List Char} {list : List Segment}

theorem split_of_marker (split : text.toList = before ++ cs)
    (starts : StartsWithMarker cs inner rest) :
    text.toList = (before ++ written inner) ++ rest := by
  rw [split, starts.eq_written_append, List.append_assoc]

/-- A character that begins no marker is kept. -/
theorem fillFrom_of_plain {c : Char} (split : text.toList = before ++ c :: cs) (plain : c ≠ '\\')
    (none : ∀ inner rest, ¬ StartsWithMarker (c :: cs) inner rest)
    (later : fillFrom policy scope line text (indexed (byteSize (before ++ [c])) cs) =
      (fillSegments policy scope line list).mapError .fault) :
    fillFrom policy scope line text (indexed (byteSize before) (c :: cs)) =
      (fillSegments policy scope line (.literal c :: list)).mapError .fault := by
  rw [byteSize_append, byteSize_singleton] at later
  rw [indexed, fillFrom, markerAt?_eq split, Logged.ofExcept_ok_bind,
    Marker.atStart?_eq_none_iff.mpr none, Marker.fillSegments_literal_cons, Logged.mapError_bind,
    ← later]
  · rfl
  · exact fun _ same => plain same
  · exact fun _ _ _ _ same => plain same

/-- A marker is filled, and filling goes on behind all of it. -/
theorem fillFrom_of_marker (split : text.toList = before ++ cs)
    (starts : StartsWithMarker cs inner rest)
    (later : fillFrom policy scope line text (indexed (byteSize (before ++ written inner)) rest) =
      (fillSegments policy scope line list).mapError .fault) :
    fillFrom policy scope line text (indexed (byteSize before) cs) =
      (fillSegments policy scope line (ofMarker inner ++ list)).mapError .fault := by
  have found := Marker.atStart?_eq_some_iff.mpr ⟨rest, starts⟩
  have filled := fillMarker_eq split starts policy scope line
  rw [byteSize_append] at later
  rw [Marker.fillSegments_append, Logged.mapError_bind]
  cases cs with
  | nil => cases found
  | cons c cs =>
    have notBackslash : c ≠ '\\' := by
      rintro rfl
      cases starts.eq
    rw [indexed, fillFrom, markerAt?_eq split, Logged.ofExcept_ok_bind, found]
    · simp only [Option.map_some, filled, dropWhile_passed starts, later, Logged.mapError_bind]
      rfl
    · exact fun _ same => notBackslash same
    · exact fun _ _ _ _ same => notBackslash same

/-- From an offset on, filling goes over the segments of the text there. The induction is on how the
text is cut into segments. -/
theorem fillFrom_eq (cut : Segmented cs list) (split : text.toList = before ++ cs) :
    fillFrom policy scope line text (indexed (byteSize before) cs) =
      (fillSegments policy scope line list).mapError .fault := by
  induction cut generalizing before with
  | nil =>
    rw [indexed, fillFrom]
    rfl
  | lone =>
    rw [indexed, indexed, fillFrom]
    rfl
  | @escaped c cs list _ ih =>
    have later := @ih (before ++ ['\\', c]) (by rw [split, List.append_assoc]; rfl)
    rw [byteSize_append, byteSize_cons, byteSize_singleton, ← Nat.add_assoc] at later
    rw [indexed, indexed, fillFrom, later, Marker.fillSegments_literal_cons, Logged.mapError_bind]
    rfl
  | @key cs inner rest list starts visible _ ih =>
    rw [← List.singleton_append, ← Marker.ofMarker_of_visible visible]
    exact fillFrom_of_marker split starts (ih (split_of_marker split starts))
  | @blank cs inner rest list starts blank _ ih =>
    rw [← Marker.ofMarker_of_blank blank]
    exact fillFrom_of_marker split starts (ih (split_of_marker split starts))
  | @plain c cs list notBackslash none _ ih =>
    exact fillFrom_of_plain split notBackslash none (ih (by rw [split, List.append_assoc]; rfl))

end

/-- By offsets a text is filled as it is on characters. -/
theorem fill_eq (policy : MissingKeys) (scope : Scope) (line : Nat) (text : String) :
    fill policy scope line text = (Marker.fill policy scope line text).mapError .fault := by
  have cut : Segmented text.toList (segments text.toList) := Marker.segmented_iff.mpr rfl
  have filled := @fillFrom_eq policy scope line text [] _ _ cut rfl
  rw [byteSize_nil] at filled
  rw [fill, Marker.fill, filled, Logged.mapError_bind]
  rfl

end Offsets

end Stencil
