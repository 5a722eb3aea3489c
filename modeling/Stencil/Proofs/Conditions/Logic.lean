import Stencil.Proofs.Conditions.Spacing

/-!
Conditions that are made of conditions.

Blanks around an operand are part of the spacing (`Spacing.exists_join_trimmed`), so two
texts that are conditions without an operator make one condition with any operator between
them (`parse_join`), and one of them is negated (`parse_negate`). The operands of a logical
operator are looked up as each of the conditions looks its own one up; so the whole holds as
the parts do (`logic_compositional`).
-/

namespace Stencil

/-! ### Names without a value -/

/-- Neither a variable nor a value of the context has this name. -/
structure Scope.Lacks (scope : Scope) (name : String) : Prop where
  undeclared : scope.declared.find? name = none
  absent : scope.context.resolve? name = none

namespace Scope.Lacks

variable {scope : Scope} {name : String}

/-- A name without a value is a keyword at best. -/
theorem named?_eq (lacks : scope.Lacks name) : scope.named? name = Operand.keyword? name := by
  simp only [named?, lacks.undeclared, lacks.absent]

/-- Of the names without a value, only the keyword `true` is true. -/
theorem isTruthy_reference (lacks : scope.Lacks name) :
    (scope.reference name).isTruthy = decide (name = "true") := by
  rw [reference, lacks.named?_eq]
  unfold Operand.keyword?
  split
  · rfl
  · rfl
  · rfl
  · next other _ _ =>
    rw [decide_eq_false other]
    rfl

end Scope.Lacks

/-- A text is its trimmed text between blanks. -/
theorem Text.exists_eq_trimmed (text : String) :
    ∃ before after : String, text = before ++ trimmed text ++ after ∧
      (∀ c ∈ before.toList, isBlank c = true) ∧ ∀ c ∈ after.toList, isBlank c = true := by
  obtain ⟨before, after, split, blank, blank'⟩ := trim_eq text.toList
  refine ⟨String.ofList before, String.ofList after, ?_, ?_, ?_⟩
  · apply String.toList_inj.mp
    simpa only [trimmed, String.toList_append, String.toList_ofList] using split
  · rwa [String.toList_ofList]
  · rwa [String.toList_ofList]

namespace Condition

/-! ### Putting operands together -/

namespace Spacing

/-- The spacing with more blanks beside the operands: in front of and behind the left one,
in front of and behind the right one. -/
def widen (spacing : Spacing) {front left right back : String}
    (blankFront : ∀ c ∈ front.toList, Text.isBlank c = true)
    (blankLeft : ∀ c ∈ left.toList, Text.isBlank c = true)
    (blankRight : ∀ c ∈ right.toList, Text.isBlank c = true)
    (blankBack : ∀ c ∈ back.toList, Text.isBlank c = true) : Spacing where
  front := spacing.front ++ front
  left := left ++ spacing.left
  right := spacing.right ++ right
  back := back ++ spacing.back
  blank := by
    have blank_append {x y : String} (first : ∀ c ∈ x.toList, Text.isBlank c = true)
        (second : ∀ c ∈ y.toList, Text.isBlank c = true) :
        (x ++ y).toList.all Text.isBlank = true := by
      rw [String.toList_append, List.all_append, List.all_eq_true.mpr first,
        List.all_eq_true.mpr second, Bool.and_self]
    simp only [List.forall_mem_cons]
    exact ⟨blank_append spacing.blank_front blankFront, blank_append blankLeft spacing.blank_left,
      blank_append spacing.blank_right blankRight, blank_append blankBack spacing.blank_back,
      List.forall_mem_nil _⟩
  apart := by
    constructor
    · intro nothing
      exact spacing.apart.1 (String.append_eq_empty_iff.mp nothing).2
    · intro nothing
      exact spacing.apart.2 (String.append_eq_empty_iff.mp nothing).1

/-- The blanks around the operands belong to the spacing. -/
theorem exists_join_trimmed (spacing : Spacing) (left : String) (op : Operator) (right : String) :
    ∃ other : Spacing, spacing.join left op right =
      other.join (Text.trimmed left) op (Text.trimmed right) := by
  obtain ⟨before, after, splitLeft, blank, blankAfter⟩ := Text.exists_eq_trimmed left
  obtain ⟨before', after', splitRight, blank', blankAfter'⟩ := Text.exists_eq_trimmed right
  refine ⟨spacing.widen blank blankAfter blank' blankAfter', ?_⟩
  calc spacing.join left op right
      = spacing.join (before ++ Text.trimmed left ++ after) op
          (before' ++ Text.trimmed right ++ after') := by rw [← splitLeft, ← splitRight]
    _ = _ := by simp only [join, widen, String.append_assoc]

theorem exists_negate_trimmed (spacing : Spacing) (operand : String) :
    ∃ other : Spacing, spacing.negate operand = other.negate (Text.trimmed operand) := by
  obtain ⟨before, after, split, blank, blankAfter⟩ := Text.exists_eq_trimmed operand
  have none : ∀ c ∈ "".toList, Text.isBlank c = true := List.forall_mem_nil _
  refine ⟨spacing.widen none none blank blankAfter, ?_⟩
  calc spacing.negate operand
      = spacing.negate (before ++ Text.trimmed operand ++ after) := by rw [← split]
    _ = _ := by simp only [negate, widen, String.append_assoc, String.append_empty]

end Spacing

section Parts

variable {a b : String} {line : Nat} {first second : Condition}

/-- A condition without an operator is its operand, and the operand is bare. -/
theorem eq_truth_of_parse (accepted : parse a line = .ok first) (simple : first.operator? = none) :
    first = ⟨Text.trimmed a, .truth (Text.trimmed a)⟩ ∧ Bare (Text.trimmed a).toList := by
  obtain ⟨form, read, rfl⟩ := parse_eq_ok_iff.mp accepted
  obtain ⟨nonempty, ⟨none, rfl⟩ | ⟨before, op, after, _, _, rfl⟩⟩ := Form.read_eq_ok_iff.mp read
  · refine ⟨rfl, ?_⟩
    rw [Text.trimmed, String.toList_ofList]
    exact ⟨nonempty, Text.trim_trimmed a.toList, none⟩
  · rw [operator?_ofOperands] at simple
    cases simple

theorem closed_trimmed (closed : Closed a.toList) : Closed (Text.trimmed a).toList := by
  rw [Text.trimmed, String.toList_ofList]
  exact closed.trim

/-- Two bare operands make a condition with any operator between them, if no quote is open
in front of it. -/
theorem parse_join {op : Operator} (left : Bare (Text.trimmed a).toList) (closed : Closed a.toList)
    (binary : op ≠ .negation) (right : Bare (Text.trimmed b).toList) (spacing : Spacing)
    (line : Nat) :
    ∃ source, parse (spacing.join a op b) line =
      .ok ⟨source, .join (Text.trimmed a) op (Text.trimmed b)⟩ := by
  obtain ⟨other, same⟩ := spacing.exists_join_trimmed a op b
  have legible : (Form.join (Text.trimmed a) op (Text.trimmed b)).Legible :=
    ⟨left, closed_trimmed closed, binary, right⟩
  rw [same]
  exact ⟨_, parse_write legible other line⟩

theorem parse_negate (operand : Bare (Text.trimmed a).toList) (spacing : Spacing) (line : Nat) :
    ∃ source, parse (spacing.negate a) line = .ok ⟨source, .negation (Text.trimmed a)⟩ := by
  obtain ⟨other, same⟩ := spacing.exists_negate_trimmed a
  have legible : (Form.negation (Text.trimmed a)).Legible := operand
  rw [same]
  exact ⟨_, parse_write legible other line⟩

/-- **Logical conditions are compositional.** Let two texts be conditions without an operator,
and let the quotes of the first one be closed. However they are spaced, both together are
read as conditions with any operator between them, and the first one with a negation in
front. In every scope the conjunction, the disjunction and the negation of them hold as the
conditions do on their own, and they are unequal exactly if they are not equal. A key
without a value is false wherever it stands; `true` is no key but a keyword. -/
theorem logic_compositional {line' : Nat} (accepted : parse a line = .ok first)
    (simple : first.operator? = none) (closed : Closed a.toList)
    (accepted' : parse b line' = .ok second) (simple' : second.operator? = none)
    (spacing : Spacing) (place : Nat) :
    ∃ both either negated equal unequal,
      parse (spacing.join a .both b) place = .ok both ∧
      parse (spacing.join a .either b) place = .ok either ∧
      parse (spacing.negate a) place = .ok negated ∧
      parse (spacing.join a .equal b) place = .ok equal ∧
      parse (spacing.join a .unequal b) place = .ok unequal ∧
      ∀ scope,
        both.holds scope = (first.holds scope && second.holds scope) ∧
        either.holds scope = (first.holds scope || second.holds scope) ∧
        negated.holds scope = (!first.holds scope) ∧
        unequal.holds scope = (!equal.holds scope) ∧
        (scope.Lacks first.source → first.source ≠ "true" →
          both.holds scope = false ∧ either.holds scope = second.holds scope ∧
            negated.holds scope = true) ∧
        (scope.Lacks second.source → second.source ≠ "true" →
          both.holds scope = false ∧ either.holds scope = first.holds scope) := by
  obtain ⟨rfl, left⟩ := eq_truth_of_parse accepted simple
  obtain ⟨rfl, right⟩ := eq_truth_of_parse accepted' simple'
  have joined (op : Operator) (binary : op ≠ .negation) :=
    parse_join left closed binary right spacing place
  obtain ⟨_, both⟩ := joined .both (by decide)
  obtain ⟨_, either⟩ := joined .either (by decide)
  obtain ⟨_, negated⟩ := parse_negate left spacing place
  obtain ⟨_, equal⟩ := joined .equal (by decide)
  obtain ⟨_, unequal⟩ := joined .unequal (by decide)
  refine ⟨_, _, _, _, _, both, either, negated, equal, unequal, ?_⟩
  intro scope
  refine ⟨rfl, rfl, rfl, rfl, ?_, ?_⟩
  · intro lacks key
    have falsy : (scope.reference (Text.trimmed a)).isTruthy = false :=
      lacks.isTruthy_reference.trans (decide_eq_false key)
    refine ⟨?_, ?_, ?_⟩
    · exact congrArg (· && _) falsy
    · exact congrArg (· || _) falsy
    · exact congrArg (!·) falsy
  · intro lacks key
    have falsy : (scope.reference (Text.trimmed b)).isTruthy = false :=
      lacks.isTruthy_reference.trans (decide_eq_false key)
    constructor
    · exact (congrArg (_ && ·) falsy).trans (Bool.and_false _)
    · exact (congrArg (_ || ·) falsy).trans (Bool.or_false _)

/-- Quoted text that is a key of the context, and a key without a value. -/
theorem logic_compositional_quoted_key :
    parse "'&&' " 1 = .ok ⟨"'&&'", .truth "'&&'"⟩ ∧ Closed "'&&' ".toList ∧
      parse "b" 1 = .ok ⟨"b", .truth "b"⟩ ∧
      Scope.Lacks ⟨.object [("'&&'", .bool true)], ∅⟩ "b" ∧
      ∃ both either, parse "'&&'  && b" 2 = .ok both ∧ parse "'&&'  || b" 2 = .ok either ∧
        both.holds ⟨.object [("'&&'", .bool true)], ∅⟩ = false ∧
        either.holds ⟨.object [("'&&'", .bool true)], ∅⟩ = true := by
  have quoted : parse "'&&' " 1 = .ok ⟨"'&&'", .truth "'&&'"⟩ := rfl
  have plain : parse "b" 1 = .ok ⟨"b", .truth "b"⟩ := rfl
  have closed : Closed ('\'' :: ("&&".toList ++ '\'' :: " ".toList)) :=
    .quoted rfl (by decide) (.plain rfl .nil)
  have lacks : Scope.Lacks ⟨.object [("'&&'", .bool true)], ∅⟩ "b" := ⟨rfl, rfl⟩
  obtain ⟨both, either, _, _, _, readBoth, readEither, _, _, _, holds⟩ :=
    logic_compositional quoted rfl closed plain rfl .single 2
  obtain ⟨_, _, _, _, _, missing⟩ := holds ⟨.object [("'&&'", .bool true)], ∅⟩
  obtain ⟨falsy, truth⟩ := missing lacks (by decide)
  exact ⟨quoted, closed, plain, lacks, both, either, readBoth, readEither, falsy, truth⟩

end Parts

end Condition

end Stencil
