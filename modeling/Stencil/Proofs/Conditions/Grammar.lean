import Stencil.Proofs.Conditions

/-!
The grammar of conditions.

A condition is a text that is read without an operator, or with exactly one that has a
text behind it, and a text in front of it unless it is the negation. Reading accepts
these texts and no others (`Form.read_eq_ok_iff`), and what it yields tells the operator
and, but for blanks around them, the texts around it (`parse_by_grammar`).
-/

namespace Stencil.Condition

/-! ### Operators among tokens -/

/-- The text is read without an operator. -/
def NoOperator (text : List Char) : Prop :=
  Tokenized true text (characters text)

/-- The text is read with exactly one operator, between the texts before and after. -/
def OneOperator (text before : List Char) (op : Operator) (after : List Char) : Prop :=
  Tokenized true text (characters before ++ .operator op :: characters after)

@[simp] theorem operators_characters (cs : List Char) : operators (characters cs) = [] := by
  simp [operators, characters, List.filterMap_map, Token.operator?, Function.comp_def]

@[simp] theorem operators_append (list later : List Token) :
    operators (list ++ later) = operators list ++ operators later :=
  List.filterMap_append

@[simp] theorem operators_operator_cons (op : Operator) (list : List Token) :
    operators (.operator op :: list) = op :: operators list :=
  rfl

@[simp] theorem text_characters (cs : List Char) : (characters cs).flatMap Token.text = cs := by
  simp [characters, List.flatMap_map, Token.text]

theorem isNone_of_mem_characters {cs : List Char} :
    ∀ token ∈ characters cs, token.operator?.isNone = true := by
  intro token member
  obtain ⟨c, _, rfl⟩ := List.mem_map.mp member
  rfl

theorem textBefore_characters_append (before : List Char) (op : Operator) (rest : List Token) :
    textBefore (characters before ++ .operator op :: rest) = before := by
  rw [textBefore, List.takeWhile_append_of_pos isNone_of_mem_characters]
  simp [Token.operator?]

theorem textAfter_characters_append (before : List Char) (op : Operator) (rest : List Token) :
    textAfter (characters before ++ .operator op :: rest) = rest.flatMap Token.text := by
  rw [textAfter, List.dropWhile_append_of_pos isNone_of_mem_characters]
  simp [Token.operator?]

/-- Tokens are characters through the first operator, if there is one. -/
theorem eq_characters_or_exists (list : List Token) :
    (∃ cs, list = characters cs) ∨
      ∃ before op rest, list = characters before ++ .operator op :: rest := by
  induction list with
  | nil => exact Or.inl ⟨[], rfl⟩
  | cons token list ih =>
    cases token with
    | operator op => exact Or.inr ⟨[], op, list, rfl⟩
    | character c =>
      rcases ih with ⟨cs, rfl⟩ | ⟨before, op, rest, rfl⟩
      · exact Or.inl ⟨c :: cs, rfl⟩
      · exact Or.inr ⟨c :: before, op, rest, rfl⟩

/-- A text has no operator, or one, or at least two. -/
theorem operators_cases (text : List Char) :
    NoOperator text ∨ (∃ before op after, OneOperator text before op after) ∨
      ∃ first second later, operators (tokens text) = first :: second :: later := by
  have read : Tokenized true text (tokens text) := tokenized_tokens (Or.inl rfl)
  have whole := text_tokens text
  rcases eq_characters_or_exists (tokens text) with ⟨cs, none⟩ | ⟨before, op, rest, some⟩
  · left
    rw [none, text_characters] at whole
    subst whole
    rwa [none] at read
  · right
    rcases eq_characters_or_exists rest with ⟨after, rfl⟩ | ⟨between, second, later, rfl⟩
    · left
      rw [some] at read
      exact ⟨before, op, after, read⟩
    · right
      refine ⟨op, second, operators later, ?_⟩
      rw [some]
      simp

/-! ### Forms -/

namespace Form

/-- The form with these operands. The negation has no operand on its left. -/
def ofOperands (left : List Char) (op : Operator) (right : List Char) : Form :=
  match op with
  | .negation => .negation (String.ofList right)
  | op => .join (String.ofList left) op (String.ofList right)

/-- The operands suit the operator: there is one on its right, and one on its left unless
it is the negation. -/
def Suits (left : List Char) (op : Operator) (right : List Char) : Prop :=
  right ≠ [] ∧ (left = [] ↔ op = .negation)

theorem ofParts_eq_ok_iff {left right : List Char} {op : Operator} {form : Form} :
    ofParts left op right = .ok form ↔ Suits left op right ∧ form = ofOperands left op right := by
  unfold ofParts Suits
  by_cases nothing : right = []
  · simp [nothing]
  · by_cases none : left = [] <;> cases op <;>
      simp [nothing, none, Operator.isUnary, ofOperands, eq_comm]

theorem ofParts_ne_secondOperator (left : List Char) (op : Operator) (right : List Char)
    (first second : Operator) : ofParts left op right ≠ .error (.secondOperator first second) := by
  unfold ofParts
  by_cases nothing : right = []
  · simp [nothing]
  · by_cases none : left = [] <;> cases op <;> simp [nothing, none, Operator.isUnary]

theorem read_of_noOperator {text : List Char} (nonempty : text ≠ []) (none : NoOperator text) :
    read text = .ok (.truth (String.ofList text)) := by
  have tokens := none.eq_tokens (Or.inl rfl)
  simp only [read, nonempty, if_false, ← tokens, operators_characters]

theorem read_of_oneOperator {text before after : List Char} {op : Operator}
    (one : OneOperator text before op after) :
    read text = ofParts (Text.trim before) op (Text.trim after) := by
  have tokens := one.eq_tokens (Or.inl rfl)
  have nonempty : text ≠ [] := by
    rintro rfl
    cases before <;> cases tokens
  simp only [read, nonempty, if_false, ← tokens, operators_append, operators_characters,
    List.nil_append, operators_operator_cons, textBefore_characters_append,
    textAfter_characters_append, text_characters]

/-- A text with a second operator has no form. -/
theorem read_of_secondOperator {text : List Char} {first second : Operator}
    {later : List Operator} (two : operators (tokens text) = first :: second :: later) :
    read text = .error (.secondOperator first second) := by
  have nonempty : text ≠ [] := by
    rintro rfl
    cases two
  simp only [read, nonempty, if_false, two]

/-- Reading accepts exactly the texts without an operator and those in which the only
operator has operands that suit it. -/
theorem read_eq_ok_iff {text : List Char} {form : Form} :
    read text = .ok form ↔ text ≠ [] ∧
      (NoOperator text ∧ form = .truth (String.ofList text) ∨
        ∃ before op after, OneOperator text before op after ∧
          Suits (Text.trim before) op (Text.trim after) ∧
          form = ofOperands (Text.trim before) op (Text.trim after)) := by
  constructor
  · intro accepted
    have nonempty : text ≠ [] := by
      rintro rfl
      cases accepted
    refine ⟨nonempty, ?_⟩
    rcases operators_cases text with none | ⟨before, op, after, one⟩ | ⟨first, second, later, two⟩
    · rw [read_of_noOperator nonempty none] at accepted
      exact Or.inl ⟨none, (Except.ok.inj accepted).symm⟩
    · rw [read_of_oneOperator one, ofParts_eq_ok_iff] at accepted
      exact Or.inr ⟨before, op, after, one, accepted⟩
    · rw [read_of_secondOperator two] at accepted
      cases accepted
  · rintro ⟨nonempty, ⟨none, rfl⟩ | ⟨before, op, after, one, suits, rfl⟩⟩
    · exact read_of_noOperator nonempty none
    · rw [read_of_oneOperator one]
      exact ofParts_eq_ok_iff.mpr ⟨suits, rfl⟩

end Form

/-! ### Conditions -/

theorem parse_of_read {text : String} {form : Form}
    (accepted : Form.read (Text.trim text.toList) = .ok form) (line : Nat) :
    parse text line = .ok ⟨Text.trimmed text, form⟩ := by
  simp only [parse, accepted]
  rfl

/-- Whatever the flaw of a condition is, the fault tells its trimmed text and its line. -/
theorem parse_of_flaw {text : String} {flaw : Flaw}
    (refused : Form.read (Text.trim text.toList) = .error flaw) (line : Nat) :
    parse text line = .error (.invalidCondition (Text.trimmed text) flaw.message line) := by
  simp only [parse, refused]
  rfl

theorem parse_eq_ok_iff {text : String} {line : Nat} {condition : Condition} :
    parse text line = .ok condition ↔
      ∃ form, Form.read (Text.trim text.toList) = .ok form ∧
        condition = ⟨Text.trimmed text, form⟩ := by
  cases outcome : Form.read (Text.trim text.toList) with
  | ok form => simp [parse_of_read outcome, eq_comm]
  | error flaw => simp [parse_of_flaw outcome]

theorem operator?_ofOperands (source : String) (left : List Char) (op : Operator)
    (right : List Char) : operator? ⟨source, .ofOperands left op right⟩ = some op := by
  cases op <;> rfl

namespace OneOperator

variable {text before after : List Char} {op : Operator}

theorem text_eq (one : OneOperator text before op after) :
    text = before ++ (op.symbol.toList ++ after) := by
  have tokens := one.eq_tokens (Or.inl rfl)
  rw [← text_tokens text, ← tokens, List.flatMap_append, text_characters, List.flatMap_cons,
    text_characters, Token.text]

/-- A trimmed text does not end with a blank, and so does what stands behind its operator. -/
theorem getLast?_after (one : OneOperator text before op after) (trimmed : Text.Trimmed text) :
    ∀ c ∈ after.getLast?, Text.isBlank c = false := by
  intro c final
  apply trimmed.2
  rw [one.text_eq, List.getLast?_append, List.getLast?_append, Option.mem_def.mp final]
  rfl

/-- A trimmed text is its operands and its operator, with blanks between them. -/
theorem exists_gaps (one : OneOperator text before op after) (trimmed : Text.Trimmed text) :
    ∃ gap gap', (∀ c ∈ gap, Text.isBlank c = true) ∧ (∀ c ∈ gap', Text.isBlank c = true) ∧
      text = Text.trim before ++ gap ++ op.symbol.toList ++ gap' ++ Text.trim after := by
  have whole := one.text_eq
  have first : ∀ c ∈ before.head?, Text.isBlank c = false := by
    intro c head
    apply trimmed.1
    rw [whole, List.head?_append, Option.mem_def.mp head]
    rfl
  obtain ⟨gap, splitBefore, blank⟩ := Text.exists_trim_append first
  obtain ⟨gap', splitAfter, blank'⟩ := Text.exists_append_trim (one.getLast?_after trimmed)
  refine ⟨gap, gap', blank, blank', ?_⟩
  calc text = before ++ (op.symbol.toList ++ after) := whole
    _ = Text.trim before ++ gap ++ (op.symbol.toList ++ (gap' ++ Text.trim after)) := by
      rw [← splitBefore, ← splitAfter]
    _ = Text.trim before ++ gap ++ op.symbol.toList ++ gap' ++ Text.trim after := by
      simp only [List.append_assoc]

end OneOperator

/-- **Reading accepts exactly the grammar with one operator.** A condition is read without a
fault exactly if its trimmed text is not empty, and no operator stands in it, or only one
that has an operand behind it, and one in front of it unless it is the negation. What is
read tells the operator and, but for blanks around them, the operands. Everything else is
refused with the trimmed text and the line. -/
theorem parse_by_grammar (text : String) (line : Nat) :
    ((∃ condition, parse text line = .ok condition) ↔
      Text.trim text.toList ≠ [] ∧
        (NoOperator (Text.trim text.toList) ∨
          ∃ before op after, OneOperator (Text.trim text.toList) before op after ∧
            Text.trim after ≠ [] ∧ (Text.trim before = [] ↔ op = .negation))) ∧
    (∀ condition, parse text line = .ok condition →
      condition.source = Text.trimmed text ∧
        (NoOperator (Text.trim text.toList) ∧ condition.operator? = none ∧
            condition.form = .truth (Text.trimmed text) ∨
          ∃ before op after, OneOperator (Text.trim text.toList) before op after ∧
            condition.operator? = some op ∧
            condition.form = .ofOperands (Text.trim before) op (Text.trim after) ∧
            ∃ gap gap', (∀ c ∈ gap, Text.isBlank c = true) ∧
              (∀ c ∈ gap', Text.isBlank c = true) ∧
              Text.trim text.toList =
                Text.trim before ++ gap ++ op.symbol.toList ++ gap' ++ Text.trim after)) ∧
    ∀ fault, parse text line = .error fault →
      ∃ reason, fault = .invalidCondition (Text.trimmed text) reason line := by
  refine ⟨⟨?_, ?_⟩, ?_, ?_⟩
  · rintro ⟨condition, accepted⟩
    obtain ⟨form, read, _⟩ := parse_eq_ok_iff.mp accepted
    obtain ⟨nonempty, none | ⟨before, op, after, one, suits, _⟩⟩ := Form.read_eq_ok_iff.mp read
    · exact ⟨nonempty, Or.inl none.1⟩
    · exact ⟨nonempty, Or.inr ⟨before, op, after, one, suits⟩⟩
  · rintro ⟨nonempty, none | ⟨before, op, after, one, suits⟩⟩
    · have read := Form.read_eq_ok_iff.mpr ⟨nonempty, Or.inl ⟨none, rfl⟩⟩
      exact ⟨_, parse_of_read read line⟩
    · have read := Form.read_eq_ok_iff.mpr
        ⟨nonempty, Or.inr ⟨before, op, after, one, suits, rfl⟩⟩
      exact ⟨_, parse_of_read read line⟩
  · intro condition accepted
    obtain ⟨form, read, rfl⟩ := parse_eq_ok_iff.mp accepted
    refine ⟨rfl, ?_⟩
    obtain ⟨_, ⟨none, rfl⟩ | ⟨before, op, after, one, _, rfl⟩⟩ := Form.read_eq_ok_iff.mp read
    · exact Or.inl ⟨none, rfl, rfl⟩
    · exact Or.inr ⟨before, op, after, one, operator?_ofOperands _ _ op _, rfl,
        one.exists_gaps (Text.trim_trimmed text.toList)⟩
  · intro fault refused
    cases outcome : Form.read (Text.trim text.toList) with
    | ok form =>
      rw [parse_of_read outcome] at refused
      cases refused
    | error flaw =>
      rw [parse_of_flaw outcome] at refused
      exact ⟨flaw.message, (Except.error.inj refused).symm⟩

/-- A lone equals sign is text. -/
example : parse " a === b" 1 = .ok ⟨"a === b", .join "a" .equal "= b"⟩ := by rfl

end Stencil.Condition
