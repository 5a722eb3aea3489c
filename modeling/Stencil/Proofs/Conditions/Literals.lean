import Stencil.Proofs.Conditions.Logic

/-!
Quoted text in conditions.

A trimmed text in which neither a quote nor an operator is written is an operand
(`Plain.bare`), and so is anything between two quotes that does not have the quote itself
(`bare_quoted`). Quoted text is neither a keyword nor a numeral. So what is compared with it
is compared with the text between the quotes, unless something has the quoted text for a name
(`quoted_operand_is_text`).
-/

namespace Stencil

/-! ### Literals -/

theorem Operand.keyword?_eq_none_iff {text : String} :
    keyword? text = none ↔ text ∉ ["true", "false", "null"] := by
  unfold keyword?
  split
  · simp
  · simp
  · simp
  · next first second third =>
    have other : text ∉ ["true", "false", "null"] := by
      simp only [List.mem_cons, List.not_mem_nil, or_false, not_or]
      exact ⟨first, second, third⟩
    exact iff_of_true rfl other

theorem unquote_eq_self {cs : List Char} (unquoted : ∀ c ∈ cs, Condition.isQuote c = false) :
    unquote cs = cs := by
  cases cs with
  | nil => rfl
  | cons c cs =>
    rw [unquote, if_neg]
    rintro ⟨quotes, _⟩
    have first := unquoted c List.mem_cons_self
    rw [Condition.isQuote_iff.mpr quotes] at first
    cases first

theorem unquote_quoted {quote : Char} (quotes : Condition.isQuote quote = true)
    (inner : List Char) : unquote (quote :: (inner ++ [quote])) = inner := by
  have either := Condition.isQuote_iff.mp quotes
  rw [unquote, if_pos ⟨either, List.getLast?_concat⟩, List.dropLast_concat]

/-- A numeral does not begin with a quote. -/
theorem Numeral.read?_of_isQuote {quote : Char} (quotes : Condition.isQuote quote = true)
    (rest : List Char) : read? (quote :: rest) = none := by
  rcases Condition.isQuote_iff.mp quotes with rfl | rfl
  · rfl
  · rfl

namespace Scope.Lacks

variable {scope : Scope} {text : String}

/-- What has no value and is no keyword is compared with as a literal. -/
theorem comparand_eq (lacks : scope.Lacks text) (ordinary : text ∉ ["true", "false", "null"]) :
    scope.comparand text = .literal text := by
  rw [comparand, lacks.named?_eq, Operand.keyword?_eq_none_iff.mpr ordinary, Option.getD_none]

end Scope.Lacks

namespace Condition

/-- Only in comparisons the right operand may be a literal. -/
theorem holds_comparison {op : Operator} (comparison : op.isComparison = true)
    (source left right : String) (scope : Scope) :
    holds ⟨source, .join left op right⟩ scope =
      op.apply (scope.reference left) (scope.comparand right) := by
  rw [Operator.isComparison, Bool.not_eq_true'] at comparison
  simp only [holds, rightOperand, comparison, Bool.false_eq_true, if_false]

theorem ne_negation_of_isComparison {op : Operator} (comparison : op.isComparison = true) :
    op ≠ .negation := by
  rintro rfl
  cases comparison

/-! ### Operands without quotes -/

/-- A trimmed text, not empty, in which neither a quote nor an operator is written. -/
structure Plain (text : String) : Prop where
  nonempty : text ≠ ""
  trimmed : Text.Trimmed text.toList
  unquoted : ∀ c ∈ text.toList, isQuote c = false
  noSymbol : ∀ op : Operator, ¬ op.symbol.toList <:+: text.toList

/-- Whether a text is plain can be computed. -/
theorem plain_iff {text : String} :
    Plain text ↔ text ≠ "" ∧ Text.trim text.toList = text.toList ∧
      text.toList.any isQuote = false ∧
        ∀ op ∈ Operator.all, ¬ op.symbol.toList <:+: text.toList := by
  simp only [Text.trim_eq_self_iff, List.any_eq_false, Bool.not_eq_true]
  constructor
  · rintro ⟨nonempty, trimmed, unquoted, noSymbol⟩
    exact ⟨nonempty, trimmed, unquoted, fun op _ => noSymbol op⟩
  · rintro ⟨nonempty, trimmed, unquoted, noSymbol⟩
    exact ⟨nonempty, trimmed, unquoted, fun op => noSymbol op (Operator.mem_all op)⟩

example : Plain "a=" := plain_iff.mpr (by decide)

/-- Without quotes, an operator that is read somewhere is also written there. -/
theorem noOperator_of_noSymbol {cs : List Char} (unquoted : ∀ c ∈ cs, isQuote c = false)
    (noSymbol : ∀ op : Operator, ¬ op.symbol.toList <:+: cs) : NoOperator cs := by
  induction cs with
  | nil => exact .nil
  | cons c cs ih =>
    obtain ⟨first, others⟩ := List.forall_mem_cons.mp unquoted
    have none (op : Operator) (rest : List Char) : ¬ op.Begins (c :: cs) rest := by
      intro begins
      have stands : op.symbol.toList <+: c :: cs := ⟨rest, begins.eq.symm⟩
      exact noSymbol op stands.isInfix
    have later (op : Operator) : ¬ op.symbol.toList <:+: cs := by
      intro inside
      exact noSymbol op (inside.trans (List.suffix_cons c cs).isInfix)
    exact .plain first none (ih others later)

namespace Plain

variable {text : String}

theorem bare (plain : Plain text) : Bare text.toList := by
  refine ⟨?_, plain.trimmed, noOperator_of_noSymbol plain.unquoted plain.noSymbol⟩
  intro nothing
  exact plain.nonempty (String.toList_eq_nil_iff.mp nothing)

theorem closed (plain : Plain text) : Closed text.toList := by
  have closed := Closed.nil.append_plain plain.unquoted
  rwa [List.append_nil] at closed

/-- In front of a bare operand, an operand without quotes makes a condition with any operator
that takes two. -/
theorem legible_join {op : Operator} {other : String} (plain : Plain text)
    (binary : op ≠ .negation) (bare : Bare other.toList) : (Form.join text op other).Legible :=
  ⟨plain.bare, plain.closed, binary, bare⟩

end Plain

/-! ### Quoted text -/

/-- A text between two quotes. -/
def quoted (quote : Char) (text : String) : String :=
  String.ofList (quote :: (text.toList ++ [quote]))

section Quoted

variable {quote : Char} {text : String}

theorem toList_quoted : (quoted quote text).toList = quote :: (text.toList ++ [quote]) :=
  String.toList_ofList

theorem isBlank_eq_false_of_isQuote (quotes : isQuote quote = true) :
    Text.isBlank quote = false := by
  cases blank : Text.isBlank quote with
  | false => rfl
  | true =>
    rw [isQuote_eq_false_of_isBlank blank] at quotes
    cases quotes

theorem trimmed_quoted (quotes : isQuote quote = true) :
    Text.Trimmed (quoted quote text).toList := by
  have visible : Text.Trimmed [quote] :=
    Text.trimmed_of_visible (List.forall_mem_singleton.mpr (isBlank_eq_false_of_isQuote quotes))
  rw [toList_quoted]
  exact visible.append visible (List.cons_ne_nil _ _) (List.cons_ne_nil _ _) text.toList

/-- Between quotes there are no operators. -/
theorem bare_quoted (quotes : isQuote quote = true) (inside : quote ∉ text.toList) :
    Bare (quoted quote text).toList := by
  refine ⟨?_, trimmed_quoted quotes, ?_⟩
  · rw [toList_quoted]
    exact List.cons_ne_nil _ _
  · have whole := tokens_quoted quotes inside []
    rw [toList_quoted, noOperator_iff, whole, tokens, tokensFrom, List.append_nil]

theorem quoted_not_keyword (quotes : isQuote quote = true) :
    quoted quote text ∉ ["true", "false", "null"] := by
  intro member
  have letter : ∀ keyword ∈ ["true", "false", "null"],
      keyword.toList.head?.any isQuote = false := by
    decide
  have first := letter _ member
  rw [toList_quoted, List.head?_cons, Option.any_some, quotes] at first
  cases first

/-- Quoted text stands for what is between the quotes, also if that is a numeral. -/
theorem literal_quoted (quotes : isQuote quote = true) :
    Operand.literal (quoted quote text) = .text text := by
  have noNumeral : FiniteDouble.ofText? (quoted quote text) = none := by
    rw [FiniteDouble.ofText?, Text.trim_eq_self (trimmed_quoted quotes), toList_quoted,
      Numeral.read?_of_isQuote quotes, Option.bind_none]
  rw [Operand.literal, noNumeral, toList_quoted, unquote_quoted quotes, String.ofList_toList]

/-- **A quoted right operand denotes its content.** Let a text not have the quote that it is
put between. Behind an operand without quotes and a comparison it is read as one operand, and
where nothing has the quoted text for a name the comparison is with the text between the
quotes: not with a name, a keyword or a number, whatever it looks like. -/
theorem quoted_operand_is_text (quotes : isQuote quote = true) (inside : quote ∉ text.toList)
    {op : Operator} (comparison : op.isComparison = true) {key : String} (plain : Plain key)
    (spacing : Spacing) (line : Nat) :
    ∃ condition, parse (spacing.join key op (quoted quote text)) line = .ok condition ∧
      condition.operator? = some op ∧ condition.form = .join key op (quoted quote text) ∧
      ∀ scope, scope.Lacks (quoted quote text) →
        condition.holds scope = op.apply (scope.reference key) (.text text) := by
  have binary := ne_negation_of_isComparison comparison
  have legible := plain.legible_join binary (bare_quoted quotes inside)
  refine ⟨_, parse_write legible spacing line, rfl, rfl, ?_⟩
  intro scope lacks
  rw [holds_comparison comparison, lacks.comparand_eq (quoted_not_keyword quotes),
    literal_quoted quotes]

/-- A quoted numeral with an operator and the other quote behind it. -/
theorem quoted_operand_is_text_numeral :
    isQuote '\'' = true ∧ '\'' ∉ "1 && \"".toList ∧ Operator.isComparison .equal = true ∧
      Plain "a" ∧ Scope.Lacks ⟨.object [("a", .string "1 && \"")], ∅⟩ "'1 && \"'" ∧
      ∃ condition, parse "a == '1 && \"'" 3 = .ok condition ∧
        condition.holds ⟨.object [("a", .string "1 && \"")], ∅⟩ = true := by
  have quotes : isQuote '\'' = true := rfl
  have inside : '\'' ∉ "1 && \"".toList := by decide
  have comparison : Operator.isComparison .equal = true := rfl
  have plain : Plain "a" := plain_iff.mpr (by decide)
  have lacks : Scope.Lacks ⟨.object [("a", .string "1 && \"")], ∅⟩ "'1 && \"'" := ⟨rfl, rfl⟩
  obtain ⟨condition, accepted, _, _, holds⟩ :=
    quoted_operand_is_text quotes inside comparison plain .single 3
  exact ⟨quotes, inside, comparison, plain, lacks, condition, accepted, holds _ lacks⟩

end Quoted

end Condition

end Stencil
