import Stencil.Proofs.Conditions.Parts
import Stencil.Proofs.Dependence

/-!
Spacing of conditions.

A form can be written down with blanks around its operator, and blanks at both ends
(`Spacing.write`). What comes from reading a condition is legible: its operands are
conditions without an operator, and no quote is open in front of the operator
(`legible_of_parse`). However a legible form is spaced, it is read back as itself
(`parse_write`), so spacing changes nothing about a condition (`parse_respaced`).
-/

namespace Stencil.Condition

/-- Blanks to write a condition with: in front of it, on the left and on the right of its
operator, and behind it. Beside the operator there is at least one. -/
structure Spacing where
  front : String
  left : String
  right : String
  back : String
  blank : ∀ gap ∈ [front, left, right, back], gap.toList.all Text.isBlank = true
  apart : left ≠ "" ∧ right ≠ ""

namespace Spacing

/-- One space on each side of the operator. -/
def single : Spacing :=
  ⟨"", " ", " ", "", by decide, by decide⟩

/-- Two operands with an operator between them. -/
def join (spacing : Spacing) (left : String) (op : Operator) (right : String) : String :=
  spacing.front ++ left ++ spacing.left ++ op.symbol ++ spacing.right ++ right ++ spacing.back

/-- The negation of an operand. -/
def negate (spacing : Spacing) (operand : String) : String :=
  spacing.front ++ Operator.negation.symbol ++ spacing.right ++ operand ++ spacing.back

/-- A form as a text. -/
def write (spacing : Spacing) : Form → String
  | .truth operand => spacing.front ++ operand ++ spacing.back
  | .negation operand => spacing.negate operand
  | .join left op right => spacing.join left op right

example : single.write (.join "a" .atLeast "'b c'") = "a >= 'b c'" ∧
    single.write (.negation "a") = "! a" := by decide

end Spacing

/-! ### Legible forms -/

/-- An operand as it is read: a trimmed text without an operator. -/
structure Bare (text : List Char) : Prop where
  nonempty : text ≠ []
  trimmed : Text.Trimmed text
  noOperator : NoOperator text

/-- The operands are such that the form can be read. The quotes on the left of an operator
are closed, since the operator would be quoted otherwise. -/
def Form.Legible : Form → Prop
  | .truth operand | .negation operand => Bare operand.toList
  | .join left op right =>
    Bare left.toList ∧ Closed left.toList ∧ op ≠ .negation ∧ Bare right.toList

theorem Form.ofOperands_of_ne {op : Operator} (binary : op ≠ .negation) (left right : List Char) :
    ofOperands left op right = .join (String.ofList left) op (String.ofList right) := by
  cases op with
  | negation => exact absurd rfl binary
  | _ => rfl

/-- What a condition is read as is legible. -/
theorem legible_of_parse {text : String} {line : Nat} {condition : Condition}
    (accepted : parse text line = .ok condition) : condition.form.Legible := by
  obtain ⟨form, read, rfl⟩ := parse_eq_ok_iff.mp accepted
  have trimmed := Text.trim_trimmed text.toList
  obtain ⟨nonempty, ⟨none, rfl⟩ | ⟨before, op, after, one, ⟨some, suits⟩, rfl⟩⟩ :=
    Form.read_eq_ok_iff.mp read
  · have bare : Bare (Text.trim text.toList) := ⟨nonempty, trimmed, none⟩
    rwa [← String.toList_ofList (l := Text.trim text.toList)] at bare
  · obtain ⟨closed, none, none'⟩ := one.operands trimmed
    have second : Bare (Text.trim after) := ⟨some, Text.trim_trimmed after, none'⟩
    rw [← String.toList_ofList (l := Text.trim after)] at second
    by_cases negated : op = .negation
    · subst negated
      exact second
    · have first : Bare (Text.trim before) :=
        ⟨fun nothing => negated (suits.mp nothing), Text.trim_trimmed before, none⟩
      rw [← String.toList_ofList (l := Text.trim before)] at first closed
      rw [Form.ofOperands_of_ne negated]
      exact ⟨first, closed, negated, second⟩

/-! ### Writing and reading -/

/-- Around an operator, blanks do not count. -/
theorem Form.read_of_parts {left right gap gap' : List Char} {op : Operator}
    (suits : Suits left op right) (trimmed : Text.Trimmed left) (closed : Closed left)
    (none : NoOperator left) (second : Bare right) (blank : ∀ c ∈ gap, Text.isBlank c = true)
    (blank' : ∀ c ∈ gap', Text.isBlank c = true) (apart : left ≠ [] → gap ≠ [])
    (apart' : gap' ≠ []) :
    read (left ++ (gap ++ (op.symbol.toList ++ (gap' ++ right)))) =
      .ok (ofOperands left op right) := by
  have one := oneOperator_of_parts op closed none second.noOperator blank blank' apart apart'
  rw [read_of_oneOperator one, Text.trim_append_of_blank blank, Text.trim_eq_self trimmed,
    Text.trim_blank_append blank', Text.trim_eq_self second.trimmed]
  exact ofParts_eq_ok_iff.mpr ⟨suits, rfl⟩

/-- At the ends of a condition, blanks do not count. -/
theorem parse_between {text : String} {front cs back : List Char} {form : Form}
    (split : text.toList = front ++ cs ++ back) (blank : ∀ c ∈ front, Text.isBlank c = true)
    (blank' : ∀ c ∈ back, Text.isBlank c = true) (trimmed : Text.Trimmed cs)
    (read : Form.read cs = .ok form) (line : Nat) :
    parse text line = .ok ⟨Text.trimmed text, form⟩ := by
  apply parse_of_read
  rw [split, Text.trim_between blank blank' trimmed, read]

theorem trimmed_symbol (op : Operator) : Text.Trimmed op.symbol.toList :=
  Text.trimmed_of_visible (isBlank_eq_false_of_mem_symbol op)

theorem symbol_ne_nil (op : Operator) : op.symbol.toList ≠ [] := by
  intro nothing
  have positive := symbol_length_pos op
  rw [← String.length_toList, nothing] at positive
  exact Nat.lt_irrefl 0 positive

namespace Spacing

variable (spacing : Spacing)

theorem blank_front : ∀ c ∈ spacing.front.toList, Text.isBlank c = true :=
  List.all_eq_true.mp (spacing.blank spacing.front (by simp))

theorem blank_left : ∀ c ∈ spacing.left.toList, Text.isBlank c = true :=
  List.all_eq_true.mp (spacing.blank spacing.left (by simp))

theorem blank_right : ∀ c ∈ spacing.right.toList, Text.isBlank c = true :=
  List.all_eq_true.mp (spacing.blank spacing.right (by simp))

theorem blank_back : ∀ c ∈ spacing.back.toList, Text.isBlank c = true :=
  List.all_eq_true.mp (spacing.blank spacing.back (by simp))

theorem left_ne_nil : spacing.left.toList ≠ [] := by
  intro nothing
  exact spacing.apart.1 (String.toList_eq_nil_iff.mp nothing)

theorem right_ne_nil : spacing.right.toList ≠ [] := by
  intro nothing
  exact spacing.apart.2 (String.toList_eq_nil_iff.mp nothing)

end Spacing

/-- However a legible form is spaced, it is read back. -/
theorem parse_write {form : Form} (legible : form.Legible) (spacing : Spacing) (line : Nat) :
    parse (spacing.write form) line = .ok ⟨Text.trimmed (spacing.write form), form⟩ := by
  have ends {cs : List Char} (split : (spacing.write form).toList =
      spacing.front.toList ++ cs ++ spacing.back.toList) (trimmed : Text.Trimmed cs)
      (read : Form.read cs = .ok form) :=
    parse_between split spacing.blank_front spacing.blank_back trimmed read line
  cases form with
  | truth operand =>
    refine ends ?_ legible.trimmed ?_
    · simp only [Spacing.write, String.toList_append]
    · rw [Form.read_of_noOperator legible.nonempty legible.noOperator, String.ofList_toList]
  | negation operand =>
    have suits : Form.Suits [] .negation operand.toList := ⟨legible.nonempty, by simp⟩
    have read := Form.read_of_parts suits (by simp [Text.Trimmed]) .nil .nil legible
      (List.forall_mem_nil _) spacing.blank_right (absurd rfl) spacing.right_ne_nil
    rw [List.nil_append, List.nil_append, Form.ofOperands, String.ofList_toList] at read
    refine ends ?_ ?_ read
    · simp only [Spacing.write, Spacing.negate, String.toList_append, List.append_assoc]
    · exact (trimmed_symbol .negation).append legible.trimmed (symbol_ne_nil .negation)
        legible.nonempty spacing.right.toList
  | join left op right =>
    obtain ⟨first, closed, binary, second⟩ := legible
    have suits : Form.Suits left.toList op right.toList :=
      ⟨second.nonempty, by simp [first.nonempty, binary]⟩
    have read := Form.read_of_parts suits first.trimmed closed first.noOperator second
      spacing.blank_left spacing.blank_right (fun _ => spacing.left_ne_nil) spacing.right_ne_nil
    rw [Form.ofOperands_of_ne binary, String.ofList_toList, String.ofList_toList] at read
    refine ends ?_ ?_ read
    · simp only [Spacing.write, Spacing.join, String.toList_append, List.append_assoc]
    · have trimmed := first.trimmed.append second.trimmed first.nonempty second.nonempty
        (spacing.left.toList ++ (op.symbol.toList ++ spacing.right.toList))
      simpa only [List.append_assoc] using trimmed

theorem Bare.parse {text : String} (bare : Bare text.toList) (line : Nat) :
    Condition.parse text line = .ok ⟨text, .truth text⟩ := by
  have legible : (Form.truth text).Legible := bare
  have accepted := parse_write legible .single line
  have written : Spacing.single.write (.truth text) = text := by
    simp only [Spacing.write, Spacing.single, String.empty_append, String.append_empty]
  rwa [written, Text.trimmed_eq_self bare.trimmed] at accepted

theorem bare_of_mem_operands {condition : Condition} (legible : condition.form.Legible)
    {operand : String} (member : operand ∈ condition.operands) : Bare operand.toList := by
  obtain ⟨source, form⟩ := condition
  cases form with
  | truth operand | negation operand =>
    obtain rfl := List.mem_singleton.mp member
    exact legible
  | join left op right =>
    obtain ⟨first, _, _, second⟩ := legible
    rcases List.mem_cons.mp member with rfl | last
    · exact first
    · obtain rfl := List.mem_singleton.mp last
      exact second

/-- **Spacing does not change a condition.** However the form of a condition is spaced, the
text is accepted on every line, with the same operator and the same operands, and holds in
the same scopes. Each operand is accepted on its own, as a condition without an operator. -/
theorem parse_respaced {text : String} {line : Nat} {condition : Condition}
    (accepted : parse text line = .ok condition) :
    (∀ (spacing : Spacing) (line' : Nat), ∃ respaced,
      parse (spacing.write condition.form) line' = .ok respaced ∧
        respaced.operator? = condition.operator? ∧ respaced.form = condition.form ∧
        ∀ scope, respaced.holds scope = condition.holds scope) ∧
    ∀ operand ∈ condition.operands, ∀ line', ∃ alone, parse operand line' = .ok alone ∧
      alone.operator? = none ∧ alone.form = .truth operand := by
  have legible := legible_of_parse accepted
  constructor
  · intro spacing line'
    obtain ⟨source, form⟩ := condition
    refine ⟨_, parse_write legible spacing line', rfl, rfl, ?_⟩
    intro scope
    rfl
  · intro operand member line'
    exact ⟨_, (bare_of_mem_operands legible member).parse line', rfl, rfl⟩

/-- Operands that end and begin with an equals sign, and an open quote before the blanks at
the end. -/
theorem parse_respaced_equals_signs :
    parse "x= === '&&" 1 = .ok ⟨"x= === '&&", .join "x=" .equal "= '&&"⟩ ∧
      (∃ respaced, parse "\t x=\u00a0==\n= '&&\r\n" 7 = .ok respaced ∧
        respaced.form = .join "x=" .equal "= '&&") ∧
      ∃ alone, parse "= '&&" 1 = .ok alone ∧ alone.form = .truth "= '&&" := by
  have accepted : parse "x= === '&&" 1 = .ok ⟨"x= === '&&", .join "x=" .equal "= '&&"⟩ := rfl
  obtain ⟨spaced, operands⟩ := parse_respaced accepted
  obtain ⟨respaced, read, _, form, _⟩ :=
    spaced ⟨"\t ", "\u00a0", "\n", "\r\n", by decide, by decide⟩ 7
  obtain ⟨alone, readAlone, _, formAlone⟩ := operands "= '&&" (by decide) 1
  exact ⟨accepted, ⟨respaced, read, form⟩, alone, readAlone, formAlone⟩

end Stencil.Condition
