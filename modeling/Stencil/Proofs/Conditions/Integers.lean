import Stencil.Proofs.Conditions.Comparisons
import Stencil.Proofs.Conditions.Declared
import Stencil.Proofs.Rounding

/-!
Integers in conditions.

An integer of the context and the literal of its decimal digits are the same number to a
comparison (`Operand.primitive_digits`): both are the integer, rounded once. A comparison of two
integers goes by the order of their places among the doubles (`Operator.apply_of_integers`),
which is their own order up to `2 ^ 53` and never the opposite one
(`Condition.integers_compare`).
-/

namespace Stencil

/-! ### Digits -/

theorem Digits.digit_or_minus {n : Int} {c : Char} (member : c ∈ ofInt n) :
    c.isDigit = true ∨ c = '-' := by
  rcases List.mem_append.mp member with sign | digit
  · right
    split at sign
    · exact List.mem_singleton.mp sign
    · cases sign
  · exact Or.inl (isDigit_of_mem_ofNat digit)

/-- What is written of digits and minus signs has no other character. -/
theorem Digits.not_mem_ofInt {n : Int} {c : Char} (noDigit : c.isDigit = false) (other : c ≠ '-') :
    c ∉ ofInt n := by
  intro member
  rcases digit_or_minus member with digit | minus
  · rw [noDigit] at digit
    cases digit
  · exact other minus

theorem Digits.ofInt_ne_nil (n : Int) : ofInt n ≠ [] := by
  intro nothing
  exact ofNat_ne_nil _ (List.append_eq_nil_iff.mp nothing).2

/-- Digits have no sign in front of them but the one that was written. -/
theorem Numeral.sign_ofInt (n : Int) :
    sign (Digits.ofInt n) = (decide (n < 0), Digits.ofNat n.natAbs) := by
  by_cases negative : n < 0
  · rw [Digits.ofInt, if_pos negative, decide_eq_true negative]
    rfl
  · rw [Digits.ofInt, if_neg negative, decide_eq_false negative, List.nil_append]
    obtain ⟨c, rest, cons⟩ := List.exists_cons_of_ne_nil (Digits.ofNat_ne_nil n.natAbs)
    have digit : c.isDigit = true := by
      apply @Digits.isDigit_of_mem_ofNat n.natAbs
      rw [cons]
      exact List.mem_cons_self
    rw [cons]
    unfold sign
    split
    · next same =>
      obtain ⟨rfl, _⟩ := List.cons.inj same
      cases digit
    · next same =>
      obtain ⟨rfl, _⟩ := List.cons.inj same
      cases digit
    · rfl

/-- Digits are read as the number that was written. -/
theorem Numeral.read?_ofInt (n : Int) :
    read? (Digits.ofInt n) = some ⟨decide (n < 0), n.natAbs, 0⟩ := by
  have all : ∀ c ∈ Digits.ofNat n.natAbs, c.isDigit = true :=
    fun c => Digits.isDigit_of_mem_ofNat
  have whole : digits (Digits.ofNat n.natAbs ++ []) = Digits.ofNat n.natAbs ++ [] :=
    List.takeWhile_append_of_pos all
  have none : afterDigits (Digits.ofNat n.natAbs ++ []) = [] :=
    List.dropWhile_append_of_pos all
  rw [List.append_nil] at whole none
  have written : written? (Digits.ofInt n) =
      some ⟨decide (n < 0), Digits.ofNat n.natAbs, [], 0⟩ := by
    simp only [written?, sign_ofInt, whole, none, fraction, List.append_nil, Digits.ofNat_ne_nil,
      if_false, exponent?, Option.map_some]
  rw [read?, written, Option.map_some, Written.numeral, List.append_nil, Digits.toNat_ofNat]
  rfl

namespace Condition

/-- Digits are neither blanks nor quotes, and operators are not written with them. -/
theorem plain_digits (n : Int) : Plain (String.ofList (Digits.ofInt n)) where
  nonempty := by
    intro empty
    apply Digits.ofInt_ne_nil n
    rw [← String.toList_ofList (l := Digits.ofInt n), empty]
    rfl
  trimmed := by
    rw [String.toList_ofList]
    refine Text.trimmed_of_visible fun c member => Bool.eq_false_iff.mpr fun blank => ?_
    have noWord := Directive.isWordChar_of_isBlank blank
    rcases Digits.digit_or_minus member with digit | rfl
    · have alphanum : c.isAlphanum = true := (Bool.or_eq_true _ _).mpr (Or.inr digit)
      rw [Directive.isWordChar, alphanum, Bool.true_or] at noWord
      cases noWord
    · cases blank
  unquoted := by
    rw [String.toList_ofList]
    intro c member
    refine Bool.eq_false_iff.mpr fun quotes => ?_
    rcases isQuote_iff.mp quotes with rfl | rfl
    · exact Digits.not_mem_ofInt rfl (by decide) member
    · exact Digits.not_mem_ofInt rfl (by decide) member
  noSymbol := by
    intro op inside
    rw [String.toList_ofList] at inside
    have sign : ∃ c ∈ op.symbol.toList, c.isDigit = false ∧ c ≠ '-' := by
      cases op <;> exact ⟨_, List.mem_cons_self, rfl, by decide⟩
    obtain ⟨c, member, noDigit, other⟩ := sign
    exact Digits.not_mem_ofInt noDigit other (inside.subset member)

theorem digits_not_keyword (n : Int) :
    String.ofList (Digits.ofInt n) ∉ ["true", "false", "null"] := by
  have letter : ∀ keyword ∈ ["true", "false", "null"],
      ∃ c ∈ keyword.toList, c.isDigit = false ∧ c ≠ '-' := by
    simp only [List.forall_mem_cons]
    refine ⟨?_, ?_, ?_, List.forall_mem_nil _⟩
    · exact ⟨_, List.mem_cons_self, rfl, by decide⟩
    · exact ⟨_, List.mem_cons_self, rfl, by decide⟩
    · exact ⟨_, List.mem_cons_self, rfl, by decide⟩
  intro member
  obtain ⟨c, inside, noDigit, other⟩ := letter _ member
  rw [String.toList_ofList] at inside
  exact Digits.not_mem_ofInt noDigit other inside

end Condition

/-- To an operator, an integer of the context and the literal of its digits are the same. -/
theorem Operand.primitive_digits {n : Int} (inRange : Number.isInRange n = true) :
    (literal (String.ofList (Digits.ofInt n))).primitive =
      (context (.number (.int n))).primitive := by
  obtain ⟨d, finite⟩ := Double.exists_finite_ofInt inRange
  have trimmed := (Condition.plain_digits n).trimmed
  rw [String.toList_ofList] at trimmed
  have read : FiniteDouble.ofText? (String.ofList (Digits.ofInt n)) = some d := by
    rw [FiniteDouble.ofText?, String.toList_ofList, Text.trim_eq_self trimmed,
      Numeral.read?_ofInt, Option.bind_some, Numeral.toDouble_ofInt, finite]
    rfl
  rw [literal, read]
  exact congrArg Primitive.number finite.symm

/-! ### Comparing integers -/

/-- Two doubles in an order are numbers, and the order of the two is that of the operands. -/
theorem Primitive.order?_number {d e : Double} {ordering : Ordering}
    (ordered : d.compare? e = some ordering) : order? (.number d) (.number e) = some ordering := by
  cases d with
  | nan => cases ordered
  | infinite | finite =>
    cases e with
    | nan => cases ordered
    | infinite | finite => exact ordered

namespace Operator

/-- What a comparison says of two integers. -/
def ofIntegers : Operator → Int → Int → Bool
  | .above, a, b => decide (a > b)
  | .atLeast, a, b => decide (a ≥ b)
  | .below, a, b => decide (a < b)
  | .atMost, a, b => decide (a ≤ b)
  | .equal, a, b => decide (a = b)
  | .unequal, a, b => decide (a ≠ b)
  | .both, _, _ | .either, _, _ | .negation, _, _ => false

/-- Whether an ordering holds of integers is told by their order. -/
theorem ofIntegers_of_ordering {op : Operator} (ordering : op ∈ orderings) (a b : Int) :
    op.ofIntegers a b = op.holdsOf (compare a b) := by
  simp only [orderings, List.mem_cons, List.not_mem_nil, or_false] at ordering
  rw [Bool.eq_iff_iff]
  rcases ordering with rfl | rfl | rfl | rfl <;>
    simp only [ofIntegers, holdsOf, decide_eq_true_eq, beq_iff_eq, bne_iff_ne, ne_eq,
      Int.compare_eq_lt, Int.compare_eq_gt] <;> omega

theorem equal_ofIntegers (a b : Int) : equal.ofIntegers a b = (compare a b == .eq) := by
  rw [Bool.eq_iff_iff]
  simp only [ofIntegers, decide_eq_true_eq, beq_iff_eq, Int.compare_eq_eq]

theorem unequal_ofIntegers (a b : Int) : unequal.ofIntegers a b = !equal.ofIntegers a b :=
  decide_not

/-- Integers in the same order are compared alike. -/
theorem ofIntegers_congr {a b a' b' : Int} (same : compare a b = compare a' b') {op : Operator}
    (comparison : op.isComparison = true) : op.ofIntegers a b = op.ofIntegers a' b' := by
  have equality : equal.ofIntegers a b = equal.ofIntegers a' b' := by
    rw [equal_ofIntegers, equal_ofIntegers, same]
  cases op with
  | above | atLeast | below | atMost =>
    rw [ofIntegers_of_ordering (by decide), ofIntegers_of_ordering (by decide), same]
  | equal => exact equality
  | unequal => rw [unequal_ofIntegers, unequal_ofIntegers, equality]
  | both | either | negation => cases comparison

/-- Two numbers in the order of two integers are compared as the integers. -/
theorem apply_of_order {op : Operator} (comparison : op.isComparison = true) {x y : Operand}
    {d e : Double} (number : x.primitive = .number d) (number' : y.primitive = .number e)
    {a b : Int} (ordered : d.compare? e = some (compare a b)) :
    op.apply x y = op.ofIntegers a b := by
  have order : x.primitive.order? y.primitive = some (compare a b) := by
    rw [number, number', Primitive.order?_number ordered]
  have equality : equal.apply x y = equal.ofIntegers a b := by
    have present : x.primitive.isAbsent = false ∧ y.primitive.isAbsent = false := by
      rw [number, number']
      exact ⟨rfl, rfl⟩
    have sorts : ¬ Primitive.SameSort x.primitive y.primitive := by
      rw [number]
      simp [Primitive.SameSort]
    have numeric : equal.apply x y = (x.primitive.order? y.primitive == some .eq) :=
      Primitive.looseEq_of_numeric present.1 present.2 sorts
    rw [numeric, order, equal_ofIntegers]
    rfl
  cases op with
  | above | atLeast | below | atMost =>
    rw [apply_of_ordering (by decide), ofIntegers_of_ordering (by decide), order]
    rfl
  | equal => exact equality
  | unequal => rw [unequal_ofIntegers, ← equality]; rfl
  | both | either | negation => cases comparison

/-- Two integers are compared as their places among the doubles. -/
theorem apply_of_integers {op : Operator} (comparison : op.isComparison = true) (a b : Int) :
    op.apply (.context (.number (.int a))) (.context (.number (.int b))) =
      op.ofIntegers (Double.integerPlace a) (Double.integerPlace b) :=
  apply_of_order comparison rfl rfl (Double.compare?_ofInt a b)

end Operator

/-- The name is that of an integer in the context, and not of a variable. -/
structure Scope.StoresInt (scope : Scope) (name : String) (n : Int) : Prop where
  undeclared : scope.declared.find? name = none
  stored : scope.context.resolve? name = some (.number (.int n))

theorem Scope.StoresInt.named?_eq {scope : Scope} {name : String} {n : Int}
    (stores : scope.StoresInt name n) :
    scope.named? name = some (.context (.number (.int n))) := by
  simp only [Scope.named?, stores.undeclared, stores.stored]

namespace Condition

/-- **Comparisons of integers are exact up to `2 ^ 53` and never inverted.** Let two names, in
which neither quotes nor operators are written, have integers of the context for values. A
comparison of the two names is a condition, and so is one of the first name with the decimal
digits of the second integer. Both hold alike where the digits are no name themselves. If
neither integer is larger than `2 ^ 53`, the comparison is that of the integers. However large
they are, if the first integer is at most the second one, the first is at most the second and
not above it as conditions, too. -/
theorem integers_compare {op : Operator} (comparison : op.isComparison = true)
    {left right : String} (plain : Plain left) (plain' : Plain right) (spacing spacing' : Spacing)
    (line line' : Nat) {b : Int} (inRange : Number.isInRange b = true) :
    ∃ names literal, parse (spacing.join left op right) line = .ok names ∧
      parse (spacing'.join left op (String.ofList (Digits.ofInt b))) line' = .ok literal ∧
      ∀ (scope : Scope) (a : Int), scope.StoresInt left a → scope.StoresInt right b →
        (scope.Lacks (String.ofList (Digits.ofInt b)) →
          literal.holds scope = names.holds scope) ∧
        (a.natAbs ≤ Nat.pow 2 53 → b.natAbs ≤ Nat.pow 2 53 →
          names.holds scope = op.ofIntegers a b) ∧
        (a ≤ b → (op = .atMost → names.holds scope = true) ∧
          (op = .above → names.holds scope = false)) := by
  have binary := ne_negation_of_isComparison comparison
  have names := parse_write (plain.legible_join binary plain'.bare) spacing line
  have literal := parse_write (plain.legible_join binary (plain_digits b).bare) spacing' line'
  refine ⟨_, _, names, literal, fun scope a stores stores' => ?_⟩
  have reference : scope.reference left = .context (.number (.int a)) := by
    rw [Scope.reference, stores.named?_eq, Option.getD_some]
  have comparand : scope.comparand right = .context (.number (.int b)) := by
    rw [Scope.comparand, stores'.named?_eq, Option.getD_some]
  rw [holds_comparison comparison, holds_comparison comparison, reference, comparand,
    Operator.apply_of_integers comparison]
  refine ⟨fun lacks => ?_, fun small small' => ?_, fun le => ⟨?_, ?_⟩⟩
  · rw [lacks.comparand_eq (digits_not_keyword b), ← Operator.apply_of_integers comparison]
    exact op.apply_congr rfl (Operand.primitive_digits inRange)
  · exact Operator.ofIntegers_congr (Double.compare_integerPlace small small') comparison
  · rintro rfl
    exact decide_eq_true (Double.integerPlace_mono le)
  · rintro rfl
    exact decide_eq_false (Int.not_lt.mpr (Double.integerPlace_mono le))

/-- The two largest integers up to `2 ^ 53`. -/
theorem integers_compare_largest :
    Operator.isComparison .atMost = true ∧ Operator.isComparison .above = true ∧
      Plain "a" ∧ Plain "b" ∧ Number.isInRange 9007199254740992 = true ∧
      ∃ (scope : Scope) (atMost literal above : Condition),
        scope.StoresInt "a" 9007199254740991 ∧ scope.StoresInt "b" 9007199254740992 ∧
        scope.Lacks "9007199254740992" ∧
        parse "a <= b" 1 = .ok atMost ∧ parse "a <= 9007199254740992" 2 = .ok literal ∧
        parse "a > b" 3 = .ok above ∧
        atMost.holds scope = true ∧ literal.holds scope = true ∧ above.holds scope = false := by
  have comparison : Operator.isComparison .atMost = true := rfl
  have comparison' : Operator.isComparison .above = true := rfl
  have plain : Plain "a" := plain_iff.mpr (by decide)
  have plain' : Plain "b" := plain_iff.mpr (by decide)
  have inRange : Number.isInRange 9007199254740992 = true := by decide
  obtain ⟨atMost, literal, readAtMost, readLiteral, holds⟩ :=
    integers_compare comparison plain plain' .single .single 1 2 inRange
  obtain ⟨above, _, readAbove, _, holds'⟩ :=
    integers_compare comparison' plain plain' .single .single 3 3 inRange
  let scope : Scope := ⟨.object [("a", .number (.int 9007199254740991)),
    ("b", .number (.int 9007199254740992))], ∅⟩
  have stores : scope.StoresInt "a" 9007199254740991 := ⟨rfl, rfl⟩
  have stores' : scope.StoresInt "b" 9007199254740992 := ⟨rfl, rfl⟩
  have lacks : scope.Lacks "9007199254740992" := ⟨rfl, rfl⟩
  obtain ⟨alike, _, ordered⟩ := holds scope _ stores stores'
  obtain ⟨_, exact, _⟩ := holds' scope _ stores stores'
  have truth := (ordered (by decide)).1 rfl
  exact ⟨comparison, comparison', plain, plain', inRange, scope, atMost, literal, above, stores,
    stores', lacks, readAtMost, readLiteral, readAbove, truth, (alike lacks).trans truth,
    exact (by decide) (by decide)⟩

/-- Beyond `2 ^ 53`, a comparison may take different integers for the same number. -/
example : Double.integerPlace 9007199254740993 = Double.integerPlace 9007199254740992 := by
  decide +kernel

end Condition

end Stencil
