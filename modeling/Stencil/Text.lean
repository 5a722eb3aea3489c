/-!
Blanks and words.

Sources, conditions, keys and numerals are cut at *blanks*, the characters with
the Unicode property White_Space. Trimming removes blanks at the ends of a text
and nothing else (`trim_eq`); a trimmed text neither begins nor ends with a
blank, so trimming again changes nothing (`trim_trim`). Paths and lines are cut
at a mark of one character (`splitAt`).
-/

namespace Stencil.Text

/-! ### Blanks -/

/-- The code point of the character lies in one of the inclusive ranges. -/
def isWithin (ranges : List (Nat × Nat)) (c : Char) : Bool :=
  ranges.any fun range => range.1 ≤ c.toNat && c.toNat ≤ range.2

/-- The code points of White_Space, as ascending inclusive ranges. -/
def blankRanges : List (Nat × Nat) :=
  [(0x09, 0x0D), (0x20, 0x20), (0x85, 0x85), (0xA0, 0xA0), (0x1680, 0x1680),
    (0x2000, 0x200A), (0x2028, 0x2029), (0x202F, 0x202F), (0x205F, 0x205F),
    (0x3000, 0x3000)]

/-- The character has the property White_Space. -/
def isBlank (c : Char) : Bool :=
  isWithin blankRanges c

/-- The property holds of 25 characters. -/
example : (blankRanges.map fun range => range.2 + 1 - range.1).sum = 25 := by decide

example : isBlank '\n' ∧ isBlank '\r' ∧ isBlank '\x0b' ∧ isBlank '\u00a0' ∧ isBlank '\u3000' ∧
    ¬ isBlank '\u200b' ∧ ¬ isBlank '\ufeff' ∧ ¬ isBlank '\x1c' := by decide

/-! ### Trimming -/

/-- The text from its first character that is not a blank. -/
def trimStart (cs : List Char) : List Char :=
  cs.dropWhile isBlank

/-- The text through its last character that is not a blank. -/
def trimEnd (cs : List Char) : List Char :=
  (cs.reverse.dropWhile isBlank).reverse

/-- The text without the blanks at its two ends. -/
def trim (cs : List Char) : List Char :=
  trimEnd (trimStart cs)

/-- `trim` on strings. -/
def trimmed (text : String) : String :=
  String.ofList (trim text.toList)

/-- Trimming the end removes blanks at the end. -/
theorem exists_trimEnd_append (cs : List Char) :
    ∃ after, cs = trimEnd cs ++ after ∧ ∀ c ∈ after, isBlank c = true := by
  refine ⟨(cs.reverse.takeWhile isBlank).reverse, ?_, ?_⟩
  · rw [trimEnd, ← List.reverse_append, List.takeWhile_append_dropWhile, List.reverse_reverse]
  · intro c member
    exact List.all_eq_true.mp List.all_takeWhile c (List.mem_reverse.mp member)

/-- Trimming removes blanks at the two ends and nothing else. -/
theorem trim_eq (cs : List Char) :
    ∃ before after, cs = before ++ trim cs ++ after ∧
      (∀ c ∈ before, isBlank c = true) ∧ ∀ c ∈ after, isBlank c = true := by
  obtain ⟨after, split, blank⟩ := exists_trimEnd_append (trimStart cs)
  refine ⟨cs.takeWhile isBlank, after, ?_, List.all_eq_true.mp List.all_takeWhile, blank⟩
  rw [trim, List.append_assoc, ← split, trimStart, List.takeWhile_append_dropWhile]

/-- Trimming removes blanks only. -/
theorem count_trim {c : Char} (visible : isBlank c = false) (cs : List Char) :
    (trim cs).count c = cs.count c := by
  have none {ds : List Char} (blank : ∀ d ∈ ds, isBlank d = true) : ds.count c = 0 := by
    rw [List.count_eq_zero]
    intro member
    rw [blank c member] at visible
    cases visible
  obtain ⟨before, after, split, blank, blank'⟩ := trim_eq cs
  have counted := congrArg (List.count c) split
  rw [List.count_append, List.count_append, none blank, none blank'] at counted
  omega

/-- A text that neither begins nor ends with a blank. -/
def Trimmed (cs : List Char) : Prop :=
  (∀ c ∈ cs.head?, isBlank c = false) ∧ ∀ c ∈ cs.getLast?, isBlank c = false

theorem trimmed_of_visible {cs : List Char} (visible : ∀ c ∈ cs, isBlank c = false) :
    Trimmed cs := by
  constructor
  · intro c head
    exact visible c (List.mem_of_mem_head? head)
  · intro c final
    exact visible c (List.mem_of_mem_getLast? final)

theorem trimStart_eq_self {cs : List Char} (h : ∀ c ∈ cs.head?, isBlank c = false) :
    trimStart cs = cs := by
  cases cs with
  | nil => rfl
  | cons c cs => simp [trimStart, h c rfl]

theorem trimEnd_eq_self {cs : List Char} (h : ∀ c ∈ cs.getLast?, isBlank c = false) :
    trimEnd cs = cs := by
  have : trimStart cs.reverse = cs.reverse :=
    trimStart_eq_self fun c member => h c (by simpa using member)
  rw [trimEnd, ← trimStart, this, List.reverse_reverse]

/-- A trimmed text is left alone. -/
theorem trim_eq_self {cs : List Char} (h : Trimmed cs) : trim cs = cs := by
  rw [trim, trimStart_eq_self h.1, trimEnd_eq_self h.2]

theorem trimmed_eq_self {text : String} (h : Trimmed text.toList) : trimmed text = text := by
  rw [trimmed, trim_eq_self h, String.ofList_toList]

theorem head?_trimStart {cs : List Char} : ∀ c ∈ (trimStart cs).head?, isBlank c = false := by
  intro c member
  have := List.head?_dropWhile_not isBlank cs
  rw [trimStart] at member
  rw [Option.mem_def.mp member] at this
  exact this

theorem getLast?_trimEnd {cs : List Char} : ∀ c ∈ (trimEnd cs).getLast?, isBlank c = false := by
  intro c member
  exact head?_trimStart c (by simpa [trimEnd, trimStart] using member)

/-- Trimming the end keeps the first character, unless nothing is left. -/
theorem head?_trimEnd {cs : List Char} (h : trimEnd cs ≠ []) : (trimEnd cs).head? = cs.head? := by
  obtain ⟨after, split, _⟩ := exists_trimEnd_append cs
  obtain ⟨c, rest, eq⟩ := List.exists_cons_of_ne_nil h
  rw [eq] at split ⊢
  rw [split]
  rfl

theorem trim_trimmed (cs : List Char) : Trimmed (trim cs) := by
  refine ⟨fun c member => ?_, getLast?_trimEnd⟩
  have nonempty : trimEnd (trimStart cs) ≠ [] := by
    intro empty
    simp [trim, empty] at member
  rw [trim, head?_trimEnd nonempty] at member
  exact head?_trimStart c member

/-- Exactly the trimmed texts are left alone. -/
theorem trim_eq_self_iff {cs : List Char} : trim cs = cs ↔ Trimmed cs := by
  constructor
  · intro same
    rw [← same]
    exact trim_trimmed cs
  · exact trim_eq_self

/-- Trimming again changes nothing. -/
theorem trim_trim (cs : List Char) : trim (trim cs) = trim cs :=
  trim_eq_self (trim_trimmed cs)

/-! ### Blanks at the ends of a text -/

theorem trimStart_append_of_blank {before : List Char} (blank : ∀ c ∈ before, isBlank c = true)
    (cs : List Char) : trimStart (before ++ cs) = trimStart cs :=
  List.dropWhile_append_of_pos blank

theorem trimEnd_append_of_blank {after : List Char} (blank : ∀ c ∈ after, isBlank c = true)
    (cs : List Char) : trimEnd (cs ++ after) = trimEnd cs := by
  have reversed : ∀ c ∈ after.reverse, isBlank c = true :=
    fun c member => blank c (List.mem_reverse.mp member)
  rw [trimEnd, List.reverse_append, List.dropWhile_append_of_pos reversed, trimEnd]

/-- Behind a text of blanks, trimming the start goes on; otherwise it stops before. -/
theorem trimStart_append (cs after : List Char) :
    trimStart (cs ++ after) =
      if trimStart cs = [] then trimStart after else trimStart cs ++ after := by
  by_cases empty : cs.dropWhile isBlank = [] <;> simp [trimStart, List.dropWhile_append, empty]

theorem trimStart_of_blank {cs : List Char} (blank : ∀ c ∈ cs, isBlank c = true) :
    trimStart cs = [] := by
  have dropped := trimStart_append_of_blank blank []
  rwa [List.append_nil] at dropped

/-- Blanks in front of a text do not count when it is trimmed. -/
theorem trim_blank_append {before : List Char} (blank : ∀ c ∈ before, isBlank c = true)
    (cs : List Char) : trim (before ++ cs) = trim cs := by
  rw [trim, trimStart_append_of_blank blank, trim]

/-- Blanks behind a text do not count when it is trimmed. -/
theorem trim_append_of_blank {after : List Char} (blank : ∀ c ∈ after, isBlank c = true)
    (cs : List Char) : trim (cs ++ after) = trim cs := by
  rw [trim, trimStart_append]
  by_cases empty : trimStart cs = []
  · rw [if_pos empty, trimStart_of_blank blank, trim, empty]
  · rw [if_neg empty, trimEnd_append_of_blank blank, trim]

/-- Behind a text that does not end with a blank, trimming goes on at the end only. -/
theorem trim_append_of_trimmed {cs : List Char} (trimmed : Trimmed cs) (nonempty : cs ≠ [])
    (after : List Char) : trim (cs ++ after) = cs ++ trimEnd after := by
  have started : trimStart (cs ++ after) = cs ++ after := by
    rw [trimStart_append, trimStart_eq_self trimmed.1, if_neg nonempty]
  obtain ⟨gap, split, blank⟩ := exists_trimEnd_append after
  have last : ∀ c ∈ (cs ++ trimEnd after).getLast?, isBlank c = false := by
    intro c final
    rw [List.getLast?_append] at final
    cases reached : (trimEnd after).getLast? with
    | none =>
      rw [reached] at final
      exact trimmed.2 c final
    | some d =>
      rw [reached] at final
      obtain rfl : d = c := Option.some.inj final
      exact getLast?_trimEnd d reached
  calc trim (cs ++ after) = trimEnd (cs ++ after) := by rw [trim, started]
    _ = trimEnd (cs ++ trimEnd after ++ gap) := by rw [List.append_assoc, ← split]
    _ = cs ++ trimEnd after := by rw [trimEnd_append_of_blank blank, trimEnd_eq_self last]

theorem trim_trimEnd (cs : List Char) : trim (trimEnd cs) = trim cs := by
  obtain ⟨after, split, blank⟩ := exists_trimEnd_append cs
  have trimmed := trim_append_of_blank blank (trimEnd cs)
  rwa [← split, eq_comm] at trimmed

/-- A trimmed text comes back from between blanks. -/
theorem trim_between {before cs after : List Char} (blank : ∀ c ∈ before, isBlank c = true)
    (blank' : ∀ c ∈ after, isBlank c = true) (trimmed : Trimmed cs) :
    trim (before ++ cs ++ after) = cs := by
  rw [trim_append_of_blank blank', trim_blank_append blank, trim_eq_self trimmed]

/-- What stands between trimmed texts does not count for the ends. -/
theorem Trimmed.append {cs ds : List Char} (first : Trimmed cs) (last : Trimmed ds)
    (nonempty : cs ≠ []) (nonempty' : ds ≠ []) (between : List Char) :
    Trimmed (cs ++ (between ++ ds)) := by
  obtain ⟨c, cs, rfl⟩ := List.exists_cons_of_ne_nil nonempty
  constructor
  · intro d head
    exact first.1 d head
  · intro d final
    rw [← List.append_assoc, List.getLast?_append] at final
    cases reached : ds.getLast? with
    | none => exact absurd (List.getLast?_eq_none_iff.mp reached) nonempty'
    | some e =>
      rw [reached] at final
      obtain rfl : e = d := Option.some.inj final
      exact last.2 e reached

/-- A text that does not begin with a blank is its trimmed text, with blanks behind it. -/
theorem exists_trim_append {cs : List Char} (visible : ∀ c ∈ cs.head?, isBlank c = false) :
    ∃ after, cs = trim cs ++ after ∧ ∀ c ∈ after, isBlank c = true := by
  obtain ⟨before, after, split, blank, blankAfter⟩ := trim_eq cs
  cases before with
  | nil => exact ⟨after, split, blankAfter⟩
  | cons c before =>
    have first : cs.head? = some c := by
      rw [split]
      rfl
    have visibleFirst := visible c first
    rw [blank c List.mem_cons_self] at visibleFirst
    cases visibleFirst

/-- A text that does not end with a blank is its trimmed text, with blanks in front of it. -/
theorem exists_append_trim {cs : List Char} (visible : ∀ c ∈ cs.getLast?, isBlank c = false) :
    ∃ before, cs = before ++ trim cs ∧ ∀ c ∈ before, isBlank c = true := by
  obtain ⟨before, after, split, blank, blankAfter⟩ := trim_eq cs
  rcases List.eq_nil_or_concat after with rfl | ⟨after, c, rfl⟩
  · rw [List.append_nil] at split
    exact ⟨before, split, blank⟩
  · have last : cs.getLast? = some c := by
      rw [split, List.concat_eq_append, ← List.append_assoc, List.getLast?_concat]
    have visibleLast := visible c last
    rw [blankAfter c (by simp)] at visibleLast
    cases visibleLast

/-- A newline is a text of blanks. -/
theorem isBlank_of_mem_newline : ∀ c ∈ ['\n'], isBlank c = true :=
  List.forall_mem_singleton.mpr (by decide)

/-- A space is a text of blanks. -/
theorem isBlank_of_mem_space : ∀ c ∈ [' '], isBlank c = true :=
  List.forall_mem_singleton.mpr (by decide)

theorem trimmed_append_newline (text : String) : trimmed (text ++ "\n") = trimmed text := by
  have split : (text ++ "\n").toList = text.toList ++ ['\n'] := String.toList_append
  rw [trimmed, split, trim_append_of_blank isBlank_of_mem_newline, trimmed]

/-! ### Words and pieces -/

/-- The first word of a text: what stands before the first blank, once leading
blanks are gone. It is empty exactly for a text of blanks. -/
def firstWord (cs : List Char) : List Char :=
  (trimStart cs).takeWhile fun c => !isBlank c

/-- Blanks behind a text do not count for its first word. -/
theorem firstWord_append_of_blank {after : List Char} (blank : ∀ c ∈ after, isBlank c = true)
    (cs : List Char) : firstWord (cs ++ after) = firstWord cs := by
  have none : after.takeWhile (fun c => !isBlank c) = [] := by
    cases after with
    | nil => rfl
    | cons c after => simp [blank c List.mem_cons_self]
  rw [firstWord, trimStart_append]
  split
  · next empty => rw [trimStart_of_blank blank, firstWord, empty]
  · rw [firstWord, List.takeWhile_append, none, List.append_nil]
    split
    · next whole => exact ((List.takeWhile_prefix _).eq_of_length whole).symm
    · rfl

/-- The pieces of a text between the occurrences of a mark, empty ones included. A
text without the mark is its only piece. -/
def splitAt (mark : Char) : List Char → List (List Char)
  | [] => [[]]
  | c :: cs =>
    if c = mark then
      [] :: splitAt mark cs
    else
      match splitAt mark cs with
      | [] => [[c]]
      | piece :: rest => (c :: piece) :: rest

example : splitAt '.' "a..b".toList = [['a'], [], ['b']] := by decide

/-- The first line of a text. A carriage return before the end of the line is not part
of it. -/
def firstLine (cs : List Char) : List Char :=
  let line := cs.takeWhile (· ≠ '\n')
  if line.getLast? = some '\r' then line.dropLast else line

example : firstLine "a\rb\r\nc".toList = ['a', '\r', 'b'] := by decide

end Stencil.Text
