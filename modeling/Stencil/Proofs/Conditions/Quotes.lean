import Stencil.Proofs.Conditions.Parts

/-!
Quotes that are never closed.

A condition is a part whose quotes are all closed, and perhaps a quote behind it that is
not (`exists_openQuote`). Operators of the first part count, however the open quote is
read: two of them are one too many. From the open quote on there are none
(`tokens_append_openQuote`), so a second operator behind it goes unnoticed.
-/

namespace Stencil

namespace Condition

/-! ### Up to the open quote -/

/-- Nothing, or a quote that is never closed with everything behind it. -/
inductive OpenQuote : List Char → Prop where
  | nil : OpenQuote []
  | quote {quote : Char} {inner : List Char} :
      isQuote quote = true → quote ∉ inner → OpenQuote (quote :: inner)

variable {front back : List Char} {list : List Token}

namespace OpenQuote

theorem isQuote_of_head? (opened : OpenQuote back) : ∀ c ∈ back.head?, isQuote c = true := by
  intro c head
  cases opened with
  | nil => cases head
  | quote quotes _ =>
    obtain rfl := Option.some.inj head
    exact quotes

theorem noOperator (opened : OpenQuote back) : NoOperator back := by
  cases opened with
  | nil => exact .nil
  | quote quotes inside => exact .toEnd rfl quotes inside

end OpenQuote

/-- From an open quote on, all tokens are characters. -/
theorem tokens_append_openQuote (closed : Closed front) (opened : OpenQuote back) :
    tokens (front ++ back) = tokens front ++ characters back := by
  have separated : ∀ c ∈ back.head?, Separates c := by
    intro c head
    exact separates_of_isQuote (opened.isQuote_of_head? c head)
  rw [tokens_append closed separated, noOperator_iff.mp opened.noOperator]

/-- Every text has all its quotes closed up to one that never is. The induction is on how
the text is read. -/
theorem exists_openQuote (text : List Char) :
    ∃ front back, text = front ++ back ∧ Closed front ∧ OpenQuote back := by
  obtain ⟨list, read⟩ : ∃ list, Tokenized true text list := ⟨_, tokenized_tokens (Or.inl rfl)⟩
  induction read with
  | nil => exact ⟨[], [], rfl, .nil, .nil⟩
  | @quoted quote inner _ _ quotes inside _ ih =>
    obtain ⟨front, back, rfl, closed, opened⟩ := ih
    exact ⟨quote :: (inner ++ quote :: front), back, by simp, .quoted quotes inside closed, opened⟩
  | toEnd _ quotes inside => exact ⟨[], _, rfl, .nil, .quote quotes inside⟩
  | lone ordinary => cases ordinary
  | @operator op _ _ _ begins _ ih =>
    obtain ⟨front, back, rfl, closed, opened⟩ := ih
    have whole := closed.append_plain (isQuote_eq_false_of_mem_symbol op)
    exact ⟨_, back, by rw [begins.eq, List.append_assoc], whole, opened⟩
  | @plain c _ _ plain _ _ ih =>
    obtain ⟨front, back, rfl, closed, opened⟩ := ih
    exact ⟨c :: front, back, rfl, .plain plain closed, opened⟩

/-- The operators of a text are those in front of the open quote. -/
theorem operators_append_openQuote (closed : Closed front) (opened : OpenQuote back)
    (tokenized : Tokenized false front list) :
    operators (tokens (front ++ back)) = operators list := by
  obtain rfl := tokenized.eq_tokens (Or.inr closed)
  rw [tokens_append_openQuote closed opened, operators_append, operators_characters,
    List.append_nil]

/-- A text is refused for a second operator exactly if it has one. -/
theorem Form.read_eq_secondOperator_iff {text : List Char} {first second : Operator} :
    read text = .error (.secondOperator first second) ↔
      ∃ later, operators (tokens text) = first :: second :: later := by
  constructor
  · intro refused
    rcases operators_cases text with none | ⟨before, op, after, one⟩ | ⟨_, _, later, two⟩
    · by_cases nonempty : text = []
      · subst nonempty
        cases refused
      · rw [read_of_noOperator nonempty none] at refused
        cases refused
    · rw [read_of_oneOperator one] at refused
      exact absurd refused (ofParts_ne_secondOperator _ _ _ _ _)
    · rw [read_of_secondOperator two] at refused
      cases refused
      exact ⟨later, two⟩
  · rintro ⟨later, two⟩
    exact read_of_secondOperator two

/-- **A second operator in front of an open quote is refused.** Every condition has all its
quotes closed up to one that perhaps never is. If the part in front of that quote has two
operators outside of quoted text, the fault tells the first two, the trimmed text and the
line. Operators behind the quote are not refused. -/
theorem second_operator_refused (text : String) :
    (∃ front back, Text.trim text.toList = front ++ back ∧ Closed front ∧ OpenQuote back) ∧
    ∀ front back list, Text.trim text.toList = front ++ back → Closed front → OpenQuote back →
      Tokenized false front list → ∀ first second,
        (Form.read (Text.trim text.toList) = .error (.secondOperator first second) ↔
          ∃ later, operators list = first :: second :: later) ∧
        ∀ later, operators list = first :: second :: later → ∀ line,
          parse text line = .error (.invalidCondition (Text.trimmed text)
            (Flaw.secondOperator first second).message line) := by
  refine ⟨exists_openQuote _, ?_⟩
  intro front back list split closed opened tokenized first second
  have found := operators_append_openQuote closed opened tokenized
  rw [← split] at found
  rw [← found]
  refine ⟨Form.read_eq_secondOperator_iff, ?_⟩
  intro later two line
  exact parse_of_flaw (Form.read_of_secondOperator two) line

/-- A quote that stands alone behind two operators. -/
theorem second_operator_refused_before_apostrophe :
    Closed "a<b && ".toList ∧ OpenQuote "'c".toList ∧
      parse "a<b && 'c" 4 = .error (.invalidCondition "a<b && 'c"
        "only one operator is allowed, found `<` and `&&`" 4) := by
  have closed : Closed "a<b && ".toList :=
    .plain rfl <| .plain rfl <| .plain rfl <| .plain rfl <| .plain rfl <| .plain rfl <|
      .plain rfl .nil
  have opened : OpenQuote "'c".toList := .quote rfl (by decide)
  refine ⟨closed, opened, ?_⟩
  have tokenized : Tokenized false "a<b && ".toList (tokens "a<b && ".toList) :=
    tokenized_tokens (Or.inr closed)
  exact ((second_operator_refused "a<b && 'c").2 _ _ _ rfl closed opened tokenized .below .both).2
    [] rfl 4

/-- Behind a quote that is never closed, a second operator is part of the operand. -/
theorem second_operator_accepted_behind_openQuote :
    ∃ list, Tokenized false "a=='b&&c".toList list ∧ operators list = [.equal, .both] ∧
      parse "a=='b&&c" 1 = .ok ⟨"a=='b&&c", .join "a" .equal "'b&&c"⟩ := by
  have plain {c : Char} {cs : List Char} {list : List Token} (ordinary : isQuote c = false)
      (none : Operator.atStart? (c :: cs) = .none) (later : Tokenized false cs list) :
      Tokenized false (c :: cs) (.character c :: list) :=
    .plain ordinary (Operator.atStart?_eq_none_iff.mp none) later
  have read : Tokenized false "a=='b&&c".toList
      [.character 'a', .operator .equal, .character '\'', .character 'b', .operator .both,
        .character 'c'] := by
    apply plain rfl (by decide)
    apply Tokenized.operator (Operator.begins_of_atStart? (by decide))
    apply Tokenized.lone rfl rfl (by decide)
    apply plain rfl (by decide)
    apply Tokenized.operator (Operator.begins_of_atStart? (by decide))
    exact plain rfl (by decide) .nil
  exact ⟨_, read, rfl, rfl⟩

end Condition

end Stencil
