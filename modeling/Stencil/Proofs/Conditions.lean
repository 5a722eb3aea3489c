import Stencil.Condition

/-!
The tokens of a condition, by rules.

Reading a condition from left to right is described by rules that mention nothing but
the text (`Tokenized`): quoted text runs through the next quote of its kind, the longest
operator is taken elsewhere, and other characters stand for themselves. A quote that is
never closed opens quoted text through the end, or stands for itself like any other
character; the two readings differ only where there is such a quote (`Closed`). Cutting
a condition into tokens follows the first one and no other rules (`tokenized_iff`).
-/

namespace Stencil

namespace Operator

/-! ### Operators at the start of a text -/

theorem mem_all (op : Operator) : op ∈ all := by
  cases op <;> decide

theorem atStart?_symbol (op : Operator) : atStart? op.symbol.toList = some op := by
  cases op <;> decide

theorem symbol_injective {op other : Operator} (same : op.symbol = other.symbol) : op = other := by
  have found := atStart?_symbol op
  rw [same, atStart?_symbol other] at found
  exact (Option.some.inj found).symm

/-- The operator stands at the start of the text, in front of the rest, and no operator
with a longer symbol stands there. -/
structure Begins (op : Operator) (cs rest : List Char) : Prop where
  eq : cs = op.symbol.toList ++ rest
  longest : ∀ other : Operator, other.symbol.toList <+: cs →
    other.symbol.length ≤ op.symbol.length

/-- Long symbols are tried first, so what is found is longest. -/
theorem length_le_of_atStart? {cs : List Char} {op other : Operator}
    (found : atStart? cs = some op) (stands : other.symbol.toList <+: cs) :
    other.symbol.length ≤ op.symbol.length := by
  obtain ⟨_, before, after, split, skipped⟩ := List.find?_eq_some_iff_append.mp found
  have descending : all.Pairwise fun op later => later.symbol.length ≤ op.symbol.length := by
    decide
  rw [split, List.pairwise_append] at descending
  have member := mem_all other
  rw [split, List.mem_append, List.mem_cons] at member
  rcases member with earlier | rfl | later
  · have skips := skipped other earlier
    rw [List.isPrefixOf_iff_prefix.mpr stands] at skips
    cases skips
  · exact Nat.le_refl _
  · exact List.rel_of_pairwise_cons descending.2.1 later

theorem begins_of_atStart? {cs : List Char} {op : Operator} (found : atStart? cs = some op) :
    op.Begins cs (cs.drop op.symbol.toList.length) :=
  ⟨Condition.atStart?_append found, fun _ => length_le_of_atStart? found⟩

/-- What is found at the start of a text is the longest operator there. -/
theorem atStart?_eq_some_iff {cs : List Char} {op : Operator} :
    atStart? cs = some op ↔ ∃ rest, op.Begins cs rest := by
  constructor
  · intro found
    exact ⟨_, begins_of_atStart? found⟩
  · rintro ⟨rest, split, longest⟩
    have stands : op.symbol.toList <+: cs := ⟨rest, split.symm⟩
    cases found : atStart? cs with
    | none =>
      have skips := List.find?_eq_none.mp found op (mem_all op)
      exact absurd (List.isPrefixOf_iff_prefix.mpr stands) skips
    | some other =>
      have foundStands : other.symbol.toList <+: cs := ⟨_, (Condition.atStart?_append found).symm⟩
      have longer := length_le_of_atStart? found stands
      have shorter := longest other foundStands
      rw [← String.length_toList, ← String.length_toList] at longer shorter
      have same : other.symbol.toList = op.symbol.toList :=
        (List.prefix_of_prefix_length_le foundStands stands shorter).eq_of_length_le longer
      rw [symbol_injective (String.toList_inj.mp same)]

theorem atStart?_eq_none_iff {cs : List Char} :
    atStart? cs = none ↔ ∀ (op : Operator) rest, ¬ op.Begins cs rest := by
  simp only [Option.eq_none_iff_forall_ne_some, ne_eq, atStart?_eq_some_iff, not_exists]

namespace Begins

variable {op : Operator} {cs rest : List Char}

theorem length_lt (begins : op.Begins cs rest) : rest.length < cs.length := by
  have positive := Condition.symbol_length_pos op
  rw [begins.eq, List.length_append, String.length_toList]
  omega

/-- An operator begins with a character of its symbol. -/
theorem head_mem {c : Char} (begins : op.Begins (c :: cs) rest) : c ∈ op.symbol.toList := by
  have split := begins.eq
  cases symbol : op.symbol.toList with
  | nil =>
    have positive := Condition.symbol_length_pos op
    rw [← String.length_toList, symbol] at positive
    exact absurd positive (Nat.lt_irrefl 0)
  | cons first more =>
    rw [symbol] at split
    obtain ⟨rfl, _⟩ := List.cons.inj split
    exact List.mem_cons_self

/-- Behind its first character an operator has the others, and then the rest. -/
theorem drop_eq {c : Char} (begins : op.Begins (c :: cs) rest) :
    cs.drop (op.symbol.length - 1) = rest := by
  have dropped : (c :: cs).drop op.symbol.length = rest := by
    rw [begins.eq, ← String.length_toList, List.drop_left]
  have length : op.symbol.length = op.symbol.length - 1 + 1 :=
    (Nat.sub_add_cancel (Condition.symbol_length_pos op)).symm
  rwa [length, List.drop_succ_cons] at dropped

end Begins

end Operator

namespace Condition

theorem isQuote_iff {c : Char} : isQuote c = true ↔ c = '"' ∨ c = '\'' := by
  rw [isQuote, Bool.or_eq_true, beq_iff_eq, beq_iff_eq]

theorem isQuote_eq_false_of_mem_symbol (op : Operator) :
    ∀ c ∈ op.symbol.toList, isQuote c = false := by
  have plain : (op.symbol.toList.all fun c => !isQuote c) = true := by
    cases op <;> decide
  intro c member
  simpa using List.all_eq_true.mp plain c member

/-- No operator begins with a quote. -/
theorem isQuote_eq_false_of_begins {op : Operator} {c : Char} {cs rest : List Char}
    (begins : op.Begins (c :: cs) rest) : isQuote c = false :=
  isQuote_eq_false_of_mem_symbol op c begins.head_mem

/-! ### Rules -/

/-- The characters of a text, without an operator among them. -/
def characters (cs : List Char) : List Token :=
  cs.map .character

/-- The tokens of a text, by rules that read it from left to right. A quote that is never
closed opens quoted text through the end if the reading is open-ended, and stands for
itself otherwise. -/
inductive Tokenized (openEnded : Bool) : List Char → List Token → Prop where
  | nil : Tokenized openEnded [] []
  /-- Quoted text runs through the next quote of the same kind. -/
  | quoted {quote : Char} {inner rest : List Char} {tokens : List Token} :
      isQuote quote = true → quote ∉ inner → Tokenized openEnded rest tokens →
      Tokenized openEnded (quote :: (inner ++ quote :: rest))
        (characters (quote :: (inner ++ [quote])) ++ tokens)
  | toEnd {quote : Char} {inner : List Char} :
      openEnded = true → isQuote quote = true → quote ∉ inner →
      Tokenized openEnded (quote :: inner) (characters (quote :: inner))
  | lone {quote : Char} {cs : List Char} {tokens : List Token} :
      openEnded = false → isQuote quote = true → quote ∉ cs → Tokenized openEnded cs tokens →
      Tokenized openEnded (quote :: cs) (.character quote :: tokens)
  | operator {op : Operator} {cs rest : List Char} {tokens : List Token} :
      op.Begins cs rest → Tokenized openEnded rest tokens →
      Tokenized openEnded cs (.operator op :: tokens)
  | plain {c : Char} {cs : List Char} {tokens : List Token} :
      isQuote c = false → (∀ (op : Operator) rest, ¬ op.Begins (c :: cs) rest) →
      Tokenized openEnded cs tokens → Tokenized openEnded (c :: cs) (.character c :: tokens)

/-- Every quote of a text that opens quoted text is closed. -/
inductive Closed : List Char → Prop where
  | nil : Closed []
  | quoted {quote : Char} {inner rest : List Char} :
      isQuote quote = true → quote ∉ inner → Closed rest →
      Closed (quote :: (inner ++ quote :: rest))
  | plain {c : Char} {cs : List Char} : isQuote c = false → Closed cs → Closed (c :: cs)

/-! ### Quotes that are closed -/

namespace Closed

variable {quote c : Char} {inner rest cs : List Char}

theorem mem_of_quote (quotes : isQuote quote = true) (closed : Closed (quote :: cs)) :
    quote ∈ cs := by
  cases closed with
  | quoted => exact List.mem_append_right _ List.mem_cons_self
  | plain plain _ =>
    rw [quotes] at plain
    cases plain

/-- Quoted text ends at the first quote of its kind. -/
theorem of_quoted (quotes : isQuote quote = true) (inside : quote ∉ inner)
    (closed : Closed (quote :: (inner ++ quote :: rest))) : Closed rest := by
  have first {inner : List Char} (inside : quote ∉ inner) (rest : List Char) :
      (inner ++ quote :: rest).takeWhile (· != quote) = inner := by
    have others : ∀ c ∈ inner, (c != quote) = true := by
      intro c member
      exact bne_iff_ne.mpr (ne_of_mem_of_not_mem member inside)
    rw [List.takeWhile_append_of_pos others]
    simp
  generalize whole : inner ++ quote :: rest = cs at closed
  cases closed with
  | @quoted _ inner' rest' _ inside' closed =>
    have same : inner = inner' := by rw [← first inside rest, whole, first inside' rest']
    subst same
    obtain rfl := (List.cons.inj (List.append_cancel_left whole)).2
    exact closed
  | plain plain _ =>
    rw [quotes] at plain
    cases plain

theorem of_plain (plain : isQuote c = false) (closed : Closed (c :: cs)) : Closed cs := by
  cases closed with
  | quoted quotes =>
    rw [plain] at quotes
    cases quotes
  | plain _ closed => exact closed

theorem of_append {before : List Char} (plain : ∀ c ∈ before, isQuote c = false)
    (closed : Closed (before ++ cs)) : Closed cs := by
  induction before with
  | nil => exact closed
  | cons c before ih =>
    obtain ⟨first, later⟩ := List.forall_mem_cons.mp plain
    exact ih later (closed.of_plain first)

theorem of_begins {op : Operator} (begins : op.Begins cs rest) (closed : Closed cs) :
    Closed rest := by
  rw [begins.eq] at closed
  exact closed.of_append (isQuote_eq_false_of_mem_symbol op)

end Closed

/-! ### Cutting by the rules -/

theorem tokensFrom_plain (pending : Nat) (cs : List Char) :
    tokensFrom (.plain pending) cs = tokens (cs.drop pending) := by
  induction pending generalizing cs with
  | zero => rfl
  | succ pending ih =>
    cases cs with
    | nil => rfl
    | cons c cs => exact ih cs

theorem tokensFrom_quoted {quote : Char} {inner : List Char} (inside : quote ∉ inner)
    (rest : List Char) :
    tokensFrom (.quoted quote) (inner ++ rest) =
      characters inner ++ tokensFrom (.quoted quote) rest := by
  induction inner with
  | nil => rfl
  | cons c inner ih =>
    rw [List.mem_cons, not_or] at inside
    obtain ⟨other, later⟩ := inside
    simp only [List.cons_append, tokensFrom, Ne.symm other, if_false, ih later]
    rfl

theorem tokens_quote {quote : Char} (quotes : isQuote quote = true) (cs : List Char) :
    tokens (quote :: cs) = .character quote :: tokensFrom (.quoted quote) cs := by
  simp only [tokens, tokensFrom, quotes, if_true]

theorem tokens_quoted {quote : Char} (quotes : isQuote quote = true) {inner : List Char}
    (inside : quote ∉ inner) (rest : List Char) :
    tokens (quote :: (inner ++ quote :: rest)) =
      characters (quote :: (inner ++ [quote])) ++ tokens rest := by
  have closing : tokensFrom (.quoted quote) (quote :: rest) = .character quote :: tokens rest := by
    simp only [tokensFrom, if_true, tokens]
  rw [tokens_quote quotes, tokensFrom_quoted inside, closing]
  simp [characters]

theorem tokens_toEnd {quote : Char} (quotes : isQuote quote = true) {inner : List Char}
    (inside : quote ∉ inner) : tokens (quote :: inner) = characters (quote :: inner) := by
  have whole := tokensFrom_quoted inside []
  rw [List.append_nil, tokensFrom, List.append_nil] at whole
  rw [tokens_quote quotes, whole]
  rfl

theorem tokens_operator {op : Operator} {cs rest : List Char} (begins : op.Begins cs rest) :
    tokens cs = .operator op :: tokens rest := by
  cases cs with
  | nil => exact absurd begins.length_lt (Nat.not_lt_zero _)
  | cons c cs =>
    have found := Operator.atStart?_eq_some_iff.mpr ⟨rest, begins⟩
    have read : tokens (c :: cs) =
        .operator op :: tokensFrom (.plain (op.symbol.length - 1)) cs := by
      simp only [tokens, tokensFrom, isQuote_eq_false_of_begins begins, found, Bool.false_eq_true,
        if_false]
    rw [read, tokensFrom_plain, begins.drop_eq]

theorem tokens_plain {c : Char} {cs : List Char} (plain : isQuote c = false)
    (none : ∀ (op : Operator) rest, ¬ op.Begins (c :: cs) rest) :
    tokens (c :: cs) = .character c :: tokens cs := by
  have found := Operator.atStart?_eq_none_iff.mpr none
  simp only [tokens, tokensFrom, plain, found, Bool.false_eq_true, if_false]

section Readings

variable {openEnded : Bool} {cs : List Char} {list : List Token}

/-- The rules leave no choice. -/
theorem Tokenized.eq_tokens (tokenized : Tokenized openEnded cs list)
    (closed : openEnded = true ∨ Closed cs) : list = tokens cs := by
  induction tokenized with
  | nil => rfl
  | quoted quotes inside _ ih =>
    rw [tokens_quoted quotes inside, ih (closed.imp_right (·.of_quoted quotes inside))]
  | toEnd _ quotes inside => rw [tokens_toEnd quotes inside]
  | lone ordinary quotes inside _ _ =>
    rcases closed with toEnd | closed
    · rw [ordinary] at toEnd
      cases toEnd
    · exact absurd (closed.mem_of_quote quotes) inside
  | operator begins _ ih =>
    rw [tokens_operator begins, ih (closed.imp_right (·.of_begins begins))]
  | plain plain none _ ih =>
    rw [tokens_plain plain none, ih (closed.imp_right (·.of_plain plain))]

/-- Every text can be read by the rules. The induction is on its length, since quoted text
and operators take several characters at once. -/
theorem tokenized_tokens (closed : openEnded = true ∨ Closed cs) :
    Tokenized openEnded cs (tokens cs) := by
  induction length : cs.length using Nat.strongRecOn generalizing cs with
  | ind n ih =>
    subst length
    cases cs with
    | nil => exact .nil
    | cons c cs =>
      by_cases quotes : isQuote c = true
      · by_cases closes : c ∈ cs
        · obtain ⟨inner, rest, rfl, inside⟩ := List.eq_append_cons_of_mem closes
          have shorter : rest.length < (c :: (inner ++ c :: rest)).length := by
            simp only [List.length_cons, List.length_append]
            omega
          have later := ih _ shorter (closed.imp_right (·.of_quoted quotes inside)) rfl
          rw [tokens_quoted quotes inside]
          exact .quoted quotes inside later
        · rcases closed with toEnd | closed
          · rw [tokens_toEnd quotes closes]
            exact .toEnd toEnd quotes closes
          · exact absurd (closed.mem_of_quote quotes) closes
      · have plain : isQuote c = false := Bool.eq_false_iff.mpr quotes
        by_cases begins : ∃ (op : Operator) (rest : List Char), op.Begins (c :: cs) rest
        · obtain ⟨op, rest, begins⟩ := begins
          have later := ih _ begins.length_lt (closed.imp_right (·.of_begins begins)) rfl
          rw [tokens_operator begins]
          exact .operator begins later
        · have none : ∀ (op : Operator) rest, ¬ op.Begins (c :: cs) rest := by
            intro op rest found
            exact begins ⟨op, rest, found⟩
          have later := ih _ (Nat.lt_succ_self _) (closed.imp_right (·.of_plain plain)) rfl
          rw [tokens_plain plain none]
          exact .plain plain none later

/-- The open-ended reading of a text is its tokens. If all quotes are closed, so is the
other one. -/
theorem tokenized_iff (closed : openEnded = true ∨ Closed cs) :
    Tokenized openEnded cs list ↔ list = tokens cs := by
  constructor
  · intro tokenized
    exact tokenized.eq_tokens closed
  · rintro rfl
    exact tokenized_tokens closed

end Readings

end Condition

end Stencil
