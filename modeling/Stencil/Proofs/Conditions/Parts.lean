import Stencil.Proofs.Conditions.Grammar

/-!
Conditions that are put together.

A text whose quotes are closed is read as if nothing followed, if the next character is in
no operator (`tokens_append`), and blanks in front of a text do not change how it is read
(`tokens_blank_append`). So the texts around the only operator of a condition have none on
their own (`OneOperator.parts`); and texts without one that blanks keep apart from an
operator make a condition with this operator and no other (`oneOperator_of_parts`).
-/

namespace Stencil

namespace Condition

/-- No operator has the character in its symbol. -/
def Separates (c : Char) : Prop :=
  ∀ op : Operator, c ∉ op.symbol.toList

theorem separates_of_isQuote {c : Char} (quotes : isQuote c = true) : Separates c := by
  intro op member
  rw [isQuote_eq_false_of_mem_symbol op c member] at quotes
  cases quotes

theorem isBlank_eq_false_of_mem_symbol (op : Operator) :
    ∀ c ∈ op.symbol.toList, Text.isBlank c = false := by
  have visible : (op.symbol.toList.all fun c => !Text.isBlank c) = true := by
    cases op <;> decide
  intro c member
  simpa using List.all_eq_true.mp visible c member

theorem separates_of_isBlank {c : Char} (blank : Text.isBlank c = true) : Separates c := by
  intro op member
  rw [isBlank_eq_false_of_mem_symbol op c member] at blank
  cases blank

theorem isQuote_eq_false_of_isBlank {c : Char} (blank : Text.isBlank c = true) :
    isQuote c = false := by
  cases quotes : isQuote c with
  | false => rfl
  | true =>
    rcases isQuote_iff.mp quotes with rfl | rfl
    · cases blank
    · cases blank

end Condition

namespace Operator

variable {op : Operator} {cs back rest : List Char}

/-- A character that is in no operator changes nothing about the operators in front of it. -/
theorem prefix_of_separated (separated : ∀ c ∈ back.head?, Condition.Separates c)
    (stands : op.symbol.toList <+: cs ++ back) : op.symbol.toList <+: cs := by
  rcases List.prefix_or_prefix_of_prefix stands (List.prefix_append cs back) with
    inside | ⟨more, symbol⟩
  · exact inside
  · cases more with
    | nil =>
      rw [List.append_nil] at symbol
      exact ⟨[], by rw [List.append_nil, symbol]⟩
    | cons c more =>
      rw [← symbol, List.prefix_append_right_inj] at stands
      obtain ⟨rest, rfl⟩ := stands
      have member : c ∈ op.symbol.toList := by
        rw [← symbol]
        exact List.mem_append_right _ List.mem_cons_self
      exact absurd member (separated c rfl op)

/-- Where some operator stands, the longest one there begins. -/
theorem exists_begins_of_prefix (stands : op.symbol.toList <+: cs) :
    ∃ (longest : Operator) (rest : List Char), longest.Begins cs rest := by
  cases found : atStart? cs with
  | some longest => exact ⟨longest, _, begins_of_atStart? found⟩
  | none =>
    have skips := List.find?_eq_none.mp found op (mem_all op)
    exact absurd (List.isPrefixOf_iff_prefix.mpr stands) skips

/-- If no operator begins a text, none begins a part from its start. -/
theorem none_begins_of_append (none : ∀ (op : Operator) rest, ¬ op.Begins (cs ++ back) rest)
    (op : Operator) (rest : List Char) : ¬ op.Begins cs rest := by
  intro begins
  have inside : op.symbol.toList <+: cs := ⟨rest, begins.eq.symm⟩
  have stands := inside.trans (List.prefix_append cs back)
  obtain ⟨longest, later, whole⟩ := exists_begins_of_prefix stands
  exact none longest later whole

namespace Begins

theorem append (separated : ∀ c ∈ back.head?, Condition.Separates c) (begins : op.Begins cs rest) :
    op.Begins (cs ++ back) (rest ++ back) := by
  constructor
  · rw [begins.eq, List.append_assoc]
  · intro other stands
    exact begins.longest other (prefix_of_separated separated stands)

theorem of_append (separated : ∀ c ∈ back.head?, Condition.Separates c)
    (begins : op.Begins (cs ++ back) rest) : ∃ rest, op.Begins cs rest := by
  obtain ⟨before, split⟩ := prefix_of_separated separated ⟨rest, begins.eq.symm⟩
  refine ⟨before, split.symm, ?_⟩
  intro other stands
  exact begins.longest other (stands.trans (List.prefix_append cs back))

end Begins

/-- The symbol of an operator is read as that operator, if no part of an operator follows. -/
theorem begins_symbol (op : Operator) (separated : ∀ c ∈ rest.head?, Condition.Separates c) :
    op.Begins (op.symbol.toList ++ rest) rest := by
  refine ⟨rfl, ?_⟩
  intro other stands
  have shorter := (prefix_of_separated separated stands).length_le
  rwa [String.length_toList, String.length_toList] at shorter

end Operator

namespace Condition

variable {openEnded : Bool} {front back : List Char} {list later : List Token}

/-! ### Reading one part after the other -/

/-- The rules read a part with closed quotes as if nothing followed, if what follows does not
begin with a part of an operator. -/
theorem Tokenized.append (tokenized : Tokenized openEnded front list) (closed : Closed front)
    (separated : ∀ c ∈ back.head?, Separates c) (behind : Tokenized openEnded back later) :
    Tokenized openEnded (front ++ back) (list ++ later) := by
  induction tokenized with
  | nil => exact behind
  | quoted quotes inside _ ih =>
    rw [List.cons_append, List.append_assoc, List.cons_append, List.append_assoc]
    exact .quoted quotes inside (ih (closed.of_quoted quotes inside))
  | toEnd _ quotes inside => exact absurd (closed.mem_of_quote quotes) inside
  | lone _ quotes inside => exact absurd (closed.mem_of_quote quotes) inside
  | operator begins _ ih =>
    exact .operator (begins.append separated) (ih (closed.of_begins begins))
  | @plain c cs _ plain none _ ih =>
    refine .plain plain ?_ (ih (closed.of_plain plain))
    intro op rest begins
    have begins : op.Begins (c :: cs ++ back) rest := begins
    obtain ⟨rest, inside⟩ := begins.of_append separated
    exact none op rest inside

theorem tokens_append (closed : Closed front) (separated : ∀ c ∈ back.head?, Separates c) :
    tokens (front ++ back) = tokens front ++ tokens back := by
  have before : Tokenized true front (tokens front) := tokenized_tokens (Or.inl rfl)
  have behind : Tokenized true back (tokens back) := tokenized_tokens (Or.inl rfl)
  exact ((before.append closed separated behind).eq_tokens (Or.inl rfl)).symm

/-- A blank stands for itself. -/
theorem tokens_blank_cons {c : Char} (blank : Text.isBlank c = true) (cs : List Char) :
    tokens (c :: cs) = .character c :: tokens cs := by
  apply tokens_plain (isQuote_eq_false_of_isBlank blank)
  intro op rest begins
  exact separates_of_isBlank blank op begins.head_mem

theorem tokens_blank_append {gap : List Char} (blank : ∀ c ∈ gap, Text.isBlank c = true)
    (cs : List Char) : tokens (gap ++ cs) = characters gap ++ tokens cs := by
  induction gap with
  | nil => rfl
  | cons c gap ih =>
    obtain ⟨first, others⟩ := List.forall_mem_cons.mp blank
    rw [List.cons_append, tokens_blank_cons first, ih others]
    rfl

/-! ### Parts without an operator -/

theorem characters_append (cs ds : List Char) :
    characters (cs ++ ds) = characters cs ++ characters ds :=
  List.map_append

theorem noOperator_iff {text : List Char} : NoOperator text ↔ tokens text = characters text :=
  (tokenized_iff (Or.inl rfl)).trans eq_comm

theorem oneOperator_iff {text before after : List Char} {op : Operator} :
    OneOperator text before op after ↔
      tokens text = characters before ++ .operator op :: characters after :=
  (tokenized_iff (Or.inl rfl)).trans eq_comm

/-- A text that is read as characters is these characters. -/
theorem noOperator_of_characters {text cs : List Char}
    (read : Tokenized true text (characters cs)) : NoOperator cs := by
  have whole := text_tokens text
  rw [← read.eq_tokens (Or.inl rfl), text_characters] at whole
  rwa [← whole] at read

theorem noOperator_blank_append {gap text : List Char} (blank : ∀ c ∈ gap, Text.isBlank c = true) :
    NoOperator (gap ++ text) ↔ NoOperator text := by
  rw [noOperator_iff, noOperator_iff, tokens_blank_append blank, characters_append,
    List.append_right_inj]

theorem tokens_of_blank {gap : List Char} (blank : ∀ c ∈ gap, Text.isBlank c = true) :
    tokens gap = characters gap := by
  have read := tokens_blank_append blank []
  rw [List.append_nil] at read
  rw [read, tokens, tokensFrom, List.append_nil]

theorem separates_head?_of_blank {gap : List Char} (blank : ∀ c ∈ gap, Text.isBlank c = true) :
    ∀ c ∈ gap.head?, Separates c := by
  intro c first
  exact separates_of_isBlank (blank c (List.mem_of_mem_head? first))

theorem noOperator_append_blank {text gap : List Char} (closed : Closed text)
    (blank : ∀ c ∈ gap, Text.isBlank c = true) :
    NoOperator (text ++ gap) ↔ NoOperator text := by
  rw [noOperator_iff, noOperator_iff, tokens_append closed (separates_head?_of_blank blank),
    tokens_of_blank blank, characters_append, List.append_left_inj]

namespace Closed

theorem append_plain {before : List Char} (plain : ∀ c ∈ before, isQuote c = false)
    (closed : Closed front) : Closed (before ++ front) := by
  induction before with
  | nil => exact closed
  | cons c before ih =>
    obtain ⟨first, later⟩ := List.forall_mem_cons.mp plain
    exact .plain first (ih later)

/-- Quoted text ends with a quote, so what has none does not count behind it. -/
theorem of_append_plain {after : List Char} (plain : ∀ c ∈ after, isQuote c = false)
    (closed : Closed (front ++ after)) : Closed front := by
  generalize whole : front ++ after = text at closed
  induction closed generalizing front with
  | nil =>
    rw [(List.append_eq_nil_iff.mp whole).1]
    exact .nil
  | @quoted quote inner rest quotes inside _ ih =>
    have outside : quote ∉ after := by
      intro member
      rw [plain quote member] at quotes
      cases quotes
    cases front with
    | nil =>
      rw [List.nil_append] at whole
      rw [whole] at outside
      exact absurd List.mem_cons_self outside
    | cons first front =>
      obtain ⟨rfl, split⟩ := List.cons.inj whole
      rcases List.append_eq_append_iff.mp split with ⟨_, _, rfl⟩ | ⟨more, rfl, behind⟩
      · exact absurd (List.mem_append_right _ List.mem_cons_self) outside
      · cases more with
        | nil =>
          rw [List.nil_append] at behind
          rw [← behind] at outside
          exact absurd List.mem_cons_self outside
        | cons closing more =>
          obtain ⟨rfl, later⟩ := List.cons.inj behind
          exact .quoted quotes inside (ih later.symm)
  | plain ordinary _ ih =>
    cases front with
    | nil => exact .nil
    | cons first front =>
      obtain ⟨rfl, split⟩ := List.cons.inj whole
      exact .plain ordinary (ih split)

theorem trim {text : List Char} (closed : Closed text) : Closed (Text.trim text) := by
  obtain ⟨before, after, split, blank, blank'⟩ := Text.trim_eq text
  rw [split, List.append_assoc] at closed
  have started := closed.of_append fun c member => isQuote_eq_false_of_isBlank (blank c member)
  exact started.of_append_plain fun c member => isQuote_eq_false_of_isBlank (blank' c member)

end Closed

/-! ### Parts around the only operator -/

theorem exists_of_characters_append {xs before : List Char} {tokens rest : List Token}
    {op : Operator} (same : characters xs ++ tokens = characters before ++ .operator op :: rest) :
    ∃ more, before = xs ++ more ∧ tokens = characters more ++ .operator op :: rest := by
  induction xs generalizing before with
  | nil => exact ⟨before, rfl, same⟩
  | cons x xs ih =>
    cases before with
    | nil => cases (List.cons.inj same).1
    | cons c before =>
      obtain ⟨first, others⟩ := List.cons.inj same
      cases first
      obtain ⟨more, rfl, rest⟩ := ih others
      exact ⟨more, rfl, rest⟩

namespace OneOperator

variable {text before after : List Char} {op : Operator}

/-- The texts around the only operator have none on their own, and all quotes of the first
one are closed. The induction is on how the condition is read. -/
theorem parts (one : OneOperator text before op after) :
    Closed before ∧ NoOperator before ∧ NoOperator after := by
  obtain ⟨list, read, tokenized⟩ :
      ∃ list, list = characters before ++ .operator op :: characters after ∧
        Tokenized true text list := ⟨_, rfl, one⟩
  clear one
  induction tokenized generalizing before with
  | nil => cases before <;> cases read
  | quoted quotes inside _ ih =>
    obtain ⟨more, rfl, rest⟩ := exists_of_characters_append read
    obtain ⟨closed, none, behind⟩ := ih rest
    have quoted := Tokenized.quoted quotes inside none
    rw [← characters_append] at quoted
    simp only [List.cons_append, List.append_assoc, List.nil_append] at quoted ⊢
    exact ⟨.quoted quotes inside closed, quoted, behind⟩
  | toEnd _ _ _ =>
    have found := congrArg operators read
    rw [operators_append, operators_characters, operators_characters] at found
    cases found
  | lone ordinary => cases ordinary
  | operator begins behind _ =>
    cases before with
    | nil =>
      rw [(List.cons.inj read).2] at behind
      exact ⟨.nil, .nil, noOperator_of_characters behind⟩
    | cons c before => cases (List.cons.inj read).1
  | @plain c cs _ plain none tokenized ih =>
    cases before with
    | nil => cases (List.cons.inj read).1
    | cons first before =>
      obtain ⟨same, rest⟩ := List.cons.inj read
      cases same
      obtain ⟨closed, free, behind⟩ := ih rest
      rw [rest] at tokenized
      have one : OneOperator cs before op after := tokenized
      rw [one.text_eq, ← List.cons_append] at none
      exact ⟨.plain plain closed, .plain plain (Operator.none_begins_of_append none) free, behind⟩

/-- Trimmed, the operands of a trimmed condition have no operator either. -/
theorem operands (one : OneOperator text before op after) (trimmed : Text.Trimmed text) :
    Closed (Text.trim before) ∧ NoOperator (Text.trim before) ∧ NoOperator (Text.trim after) := by
  obtain ⟨closed, none, none'⟩ := one.parts
  refine ⟨closed.trim, ?_, ?_⟩
  · obtain ⟨gap, gap', split, blank, blank'⟩ := Text.trim_eq before
    rw [split, List.append_assoc, noOperator_blank_append blank,
      noOperator_append_blank closed.trim blank'] at none
    exact none
  · obtain ⟨gap, split, blank⟩ := Text.exists_append_trim (one.getLast?_after trimmed)
    rw [split, noOperator_blank_append blank] at none'
    exact none'

end OneOperator

/-- Texts without operators, with an operator between them that blanks keep apart from them,
are read with this operator and no other. -/
theorem oneOperator_of_parts {left right gap gap' : List Char} (op : Operator)
    (closed : Closed left) (none : NoOperator left) (none' : NoOperator right)
    (blank : ∀ c ∈ gap, Text.isBlank c = true) (blank' : ∀ c ∈ gap', Text.isBlank c = true)
    (apart : left ≠ [] → gap ≠ []) (apart' : gap' ≠ []) :
    OneOperator (left ++ (gap ++ (op.symbol.toList ++ (gap' ++ right)))) (left ++ gap) op
      (gap' ++ right) := by
  have separated {gap : List Char} (blank : ∀ c ∈ gap, Text.isBlank c = true) (some : gap ≠ [])
      (rest : List Char) : ∀ c ∈ (gap ++ rest).head?, Separates c := by
    obtain ⟨c, gap, rfl⟩ := List.exists_cons_of_ne_nil some
    exact fun d first => separates_head?_of_blank blank d first
  have behind : tokens (op.symbol.toList ++ (gap' ++ right)) =
      .operator op :: characters (gap' ++ right) := by
    rw [tokens_operator (Operator.begins_symbol op (separated blank' apart' right)),
      tokens_blank_append blank', noOperator_iff.mp none', characters_append]
  rw [oneOperator_iff, characters_append, List.append_assoc, ← behind, ← tokens_blank_append blank]
  by_cases nothing : left = []
  · subst nothing
    rfl
  · rw [tokens_append closed (separated blank (apart nothing) _), noOperator_iff.mp none]

end Condition

end Stencil
