import Stencil.Fault

/-!
Texts by byte offsets.

A text may be cut at byte offsets instead of characters. A slice between two offsets exists only
if both stand in front of a character or at the end of the text; elsewhere cutting slips
(`slice_eq_ok_iff`). Characters come with their offsets (`indexed`), and searches tell the offset
of what they find (`find?`). What is found, and what is reached by adding the bytes of characters
that stand there, is where a slice may begin or end (`slice_of_split`).
-/

namespace Stencil.Offsets

/-! ### Bytes -/

/-- The number of bytes of characters in UTF-8. -/
def byteSize : List Char → Nat
  | [] => 0
  | c :: cs => c.utf8Size + byteSize cs

@[simp] theorem byteSize_nil : byteSize [] = 0 :=
  rfl

theorem byteSize_cons (c : Char) (cs : List Char) : byteSize (c :: cs) = c.utf8Size + byteSize cs :=
  rfl

theorem byteSize_append (cs ds : List Char) : byteSize (cs ++ ds) = byteSize cs + byteSize ds := by
  induction cs with
  | nil => exact (Nat.zero_add _).symm
  | cons c cs ih => rw [List.cons_append, byteSize_cons, byteSize_cons, ih, Nat.add_assoc]

theorem byteSize_singleton (c : Char) : byteSize [c] = c.utf8Size := by
  rw [byteSize_cons, byteSize_nil, Nat.add_zero]

theorem utf8ByteSize_ofList (cs : List Char) : (String.ofList cs).utf8ByteSize = byteSize cs := by
  induction cs with
  | nil => rfl
  | cons c cs ih =>
    have split : String.ofList (c :: cs) = String.singleton c ++ String.ofList cs := by
      rw [String.singleton_eq_ofList, ← String.ofList_append, List.singleton_append]
    rw [split, String.utf8ByteSize_append, String.utf8ByteSize_singleton, ih, byteSize_cons]

theorem utf8ByteSize_eq (text : String) : text.utf8ByteSize = byteSize text.toList := by
  rw [← utf8ByteSize_ofList, String.ofList_toList]

/-! ### Slices -/

/-- Why a computation by offsets stops. -/
inductive Stop where
  /-- An offset lies beyond the text or inside of a character, or the offsets are the wrong way
  round. -/
  | slip
  | fault (fault : Fault)

/-- The part of a text between two offsets. -/
def slice (text : String) (start stop : Nat) : Except Stop String :=
  if valid : (⟨start⟩ : String.Pos.Raw).IsValid text ∧ (⟨stop⟩ : String.Pos.Raw).IsValid text ∧
      start ≤ stop then
    .ok (text.extract ⟨⟨start⟩, valid.1⟩ ⟨⟨stop⟩, valid.2.1⟩)
  else
    .error .slip

/-- The part of a text from an offset on. -/
def sliceFrom (text : String) (start : Nat) : Except Stop String :=
  slice text start text.utf8ByteSize

theorem slice_append (before part after : String) :
    slice (before ++ (part ++ after)) before.utf8ByteSize
      (before.utf8ByteSize + part.utf8ByteSize) = .ok part := by
  have start : (⟨before.utf8ByteSize⟩ : String.Pos.Raw).IsValid (before ++ (part ++ after)) :=
    String.Pos.Raw.isValid_iff_exists_append.mpr ⟨before, part ++ after, rfl, rfl⟩
  have stop : (⟨before.utf8ByteSize + part.utf8ByteSize⟩ : String.Pos.Raw).IsValid
      (before ++ (part ++ after)) := by
    refine String.Pos.Raw.isValid_iff_exists_append.mpr ⟨before ++ part, after, ?_, ?_⟩
    · rw [String.append_assoc]
    · rw [← String.utf8ByteSize_append]
      rfl
  rw [slice, dif_pos ⟨start, stop, Nat.le_add_right _ _⟩]
  congr 1
  apply String.toByteArray_inj.mp
  rw [String.toByteArray_extract, String.toByteArray_append, String.toByteArray_append]
  exact (@ByteArray.extract_append_size_add before.toByteArray _ 0 part.utf8ByteSize).trans
    (ByteArray.extract_append_eq_left rfl)

section

variable {text : String} {before part after : List Char}

/-- Between two splits of a text there is a slice. -/
theorem slice_of_split (split : text.toList = before ++ (part ++ after)) :
    slice text (byteSize before) (byteSize before + byteSize part) = .ok (String.ofList part) := by
  obtain rfl : text = String.ofList before ++ (String.ofList part ++ String.ofList after) := by
    rw [← String.ofList_append, ← String.ofList_append, ← split, String.ofList_toList]
  have cut := slice_append (String.ofList before) (String.ofList part) (String.ofList after)
  rwa [utf8ByteSize_ofList, utf8ByteSize_ofList] at cut

theorem sliceFrom_of_split (split : text.toList = before ++ after) :
    sliceFrom text (byteSize before) = .ok (String.ofList after) := by
  have whole : text.toList = before ++ (after ++ []) := by rw [List.append_nil, split]
  rw [sliceFrom, utf8ByteSize_eq, split, byteSize_append]
  exact slice_of_split whole

end

/-- An offset where a text may be cut is told by the characters in front of it. -/
theorem exists_take_of_isValid {text : String} {offset : Nat}
    (valid : (⟨offset⟩ : String.Pos.Raw).IsValid text) :
    ∃ i, offset = byteSize (text.toList.take i) := by
  obtain ⟨i, same⟩ := String.Pos.Raw.isValid_iff_exists_take_toList.mp valid
  exact ⟨i, same.trans (utf8ByteSize_ofList _)⟩

theorem exists_split_of_isValid {text : String} {start stop : Nat}
    (valid : (⟨start⟩ : String.Pos.Raw).IsValid text)
    (valid' : (⟨stop⟩ : String.Pos.Raw).IsValid text) (ordered : start ≤ stop) :
    ∃ before part after, text.toList = before ++ (part ++ after) ∧ start = byteSize before ∧
      stop = start + byteSize part := by
  obtain ⟨i, rfl⟩ := exists_take_of_isValid valid
  obtain ⟨j, rfl⟩ := exists_take_of_isValid valid'
  have between {low high : Nat} (le : low ≤ high) :
      text.toList.take high = text.toList.take low ++ (text.toList.take high).drop low := by
    have first : (text.toList.take high).take low = text.toList.take low := by
      rw [List.take_take, Nat.min_eq_left le]
    rw [← first, List.take_append_drop]
  rcases Nat.le_total i j with le | le
  · refine ⟨text.toList.take i, (text.toList.take j).drop i, text.toList.drop j, ?_, rfl, ?_⟩
    · rw [← List.append_assoc, ← between le, List.take_append_drop]
    · rw [← byteSize_append, ← between le]
  · -- The second offset is told by fewer characters, so it is no other than the first.
    have larger : byteSize (text.toList.take j) ≤ byteSize (text.toList.take i) := by
      rw [between le, byteSize_append]
      exact Nat.le_add_right _ _
    have same := Nat.le_antisymm ordered larger
    exact ⟨text.toList.take j, [], text.toList.drop j, (List.take_append_drop j _).symm, same,
      same.symm⟩

/-- A slice stands between two splits of the text, and nothing else is one. -/
theorem slice_eq_ok_iff {text part : String} {start stop : Nat} :
    slice text start stop = .ok part ↔ ∃ before after,
      text.toList = before ++ (part.toList ++ after) ∧ start = byteSize before ∧
        stop = start + byteSize part.toList := by
  constructor
  · intro cut
    have valid : (⟨start⟩ : String.Pos.Raw).IsValid text ∧
        (⟨stop⟩ : String.Pos.Raw).IsValid text ∧ start ≤ stop := by
      unfold slice at cut
      split at cut
      · next valid => exact valid
      · cases cut
    obtain ⟨before, inner, after, split, rfl, rfl⟩ :=
      exists_split_of_isValid valid.1 valid.2.1 valid.2.2
    rw [slice_of_split split] at cut
    obtain rfl := Except.ok.inj cut
    rw [String.toList_ofList]
    exact ⟨before, after, split, rfl, rfl⟩
  · rintro ⟨before, after, split, rfl, rfl⟩
    rw [slice_of_split split, String.ofList_toList]

example : slice "a\u00e9" 1 3 = .ok "\u00e9" ∧ slice "a\u00e9" 1 2 = .error .slip ∧
    slice "a\u00e9" 2 3 = .error .slip ∧ slice "a\u00e9" 3 4 = .error .slip ∧
    slice "a\u00e9" 1 0 = .error .slip :=
  ⟨rfl, rfl, rfl, rfl, rfl⟩

/-! ### Characters and searches -/

/-- Characters with their offsets, the first of which is given. -/
def indexed : Nat → List Char → List (Nat × Char)
  | _, [] => []
  | place, c :: cs => (place, c) :: indexed (place + c.utf8Size) cs

/-- The offset of the first place from where the text goes on in a certain way. -/
def find? (begins : List Char → Bool) : List Char → Option Nat
  | [] => none
  | c :: cs => if begins (c :: cs) then some 0 else (find? begins cs).map (· + c.utf8Size)

theorem find?_cons_of_pos {begins : List Char → Bool} {c : Char} {cs : List Char}
    (here : begins (c :: cs) = true) : find? begins (c :: cs) = some 0 := by
  rw [find?, if_pos here]

theorem find?_cons_of_neg {begins : List Char → Bool} {c : Char} {cs : List Char}
    (other : begins (c :: cs) = false) :
    find? begins (c :: cs) = (find? begins cs).map (· + c.utf8Size) := by
  rw [find?, other, if_neg Bool.false_ne_true]

/-- The offset of the first character with a property. -/
def findChar? (holds : Char → Bool) (text : String) : Option Nat :=
  find? (fun cs => cs.head?.any holds) text.toList

/-- The offset of the first occurrence of a text. -/
def findText? (part : String) (text : String) : Option Nat :=
  find? part.toList.isPrefixOf text.toList

example : indexed 0 "a\u00e9b".toList = [(0, 'a'), (1, '\u00e9'), (3, 'b')] ∧
    findChar? (· == 'b') "a\u00e9b" = some 3 ∧ findText? "b" "a\u00e9" = none := by decide

/-- What is found stands behind the characters without the property; if there is no other,
nothing is found. -/
theorem findChar?_getD (holds : Char → Bool) (text : String) :
    (findChar? holds text).getD text.utf8ByteSize =
      byteSize (text.toList.takeWhile fun c => !holds c) := by
  rw [utf8ByteSize_eq, findChar?]
  induction text.toList with
  | nil => rfl
  | cons c cs ih =>
    cases found : holds c with
    | true =>
      rw [find?_cons_of_pos found]
      simp [found]
    | false =>
      rw [find?_cons_of_neg found, List.takeWhile_cons_of_pos (by rw [found]; rfl), byteSize_cons,
        byteSize_cons, ← ih]
      cases find? (fun cs => cs.head?.any holds) cs with
      | none => rfl
      | some place => exact Nat.add_comm _ _

/-- What stands before and behind the first character with a property are slices. -/
theorem slices_of_findChar? (holds : Char → Bool) (text : String) :
    slice text 0 ((findChar? holds text).getD text.utf8ByteSize) =
        .ok (String.ofList (text.toList.takeWhile fun c => !holds c)) ∧
      sliceFrom text ((findChar? holds text).getD text.utf8ByteSize) =
        .ok (String.ofList (text.toList.dropWhile fun c => !holds c)) := by
  have split : text.toList = (text.toList.takeWhile fun c => !holds c) ++
      text.toList.dropWhile fun c => !holds c := List.takeWhile_append_dropWhile.symm
  rw [findChar?_getD]
  constructor
  · have cut := @slice_of_split text [] _ _ split
    rwa [byteSize_nil, Nat.zero_add] at cut
  · exact sliceFrom_of_split split

end Stencil.Offsets
