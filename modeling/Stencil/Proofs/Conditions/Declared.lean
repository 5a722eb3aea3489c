import Stencil.Proofs.Conditions.Literals
import Stencil.Proofs.Scan
import Stencil.Proofs.Walk

/-!
Literals and declared variables.

What an operator makes of its operands does not depend on where they come from
(`Operator.apply_congr`), and a text without quotes comes to the same as a literal and as the
value of a variable (`primitive_variable_parse`). So a comparison with a literal holds where
the comparison with a variable does that was declared with the text of the literal. An `@if`
with the first one chooses the arm that an `@var` and an `@if` with the second one choose
(`declared_compares_as_literal`).
-/

namespace Stencil

/-! ### Operands without their origin -/

theorem Operator.apply_congr (op : Operator) {left left' right right' : Operand}
    (same : left.primitive = left'.primitive) (same' : right.primitive = right'.primitive) :
    op.apply left right = op.apply left' right' := by
  cases op with
  | above | atLeast | below | atMost =>
    simp only [apply, ordersAs, Operand.toNumber?, same, same']
  | equal | unequal => simp only [apply, Operand.looseEq, same, same']
  | both | either | negation => simp only [apply, Operand.isTruthy, same, same']

/-- A literal without quotes and a variable with the same text come to the same. -/
theorem Operand.primitive_variable_parse {text : String}
    (unquoted : ∀ c ∈ text.toList, Condition.isQuote c = false) :
    (Operand.variable (.parse text)).primitive = (Operand.literal text).primitive := by
  unfold Scalar.parse literal
  cases FiniteDouble.ofText? text with
  | some d => rfl
  | none =>
    rw [unquote_eq_self unquoted, String.ofList_toList]
    rfl

namespace Scope

variable (scope : Scope) {name key : String} (value : Scalar)

theorem comparand_declare_self : (scope.declare name value).comparand name = .variable value := by
  simp only [comparand, named?, declare, Bindings.find?_set_self, Option.getD_some]

theorem reference_declare_of_ne (other : key ≠ name) :
    (scope.declare name value).reference key = scope.reference key := by
  simp only [reference, named?, declare, Bindings.find?_set_of_ne _ value other]

end Scope

/-! ### Lines of templates -/

namespace Source

/-- The line of a declaration. -/
def varLine (name value : String) : String :=
  "@var " ++ name ++ " " ++ value ++ "\n"

/-- The line that starts a chain. -/
def ifLine (condition : String) : String :=
  "@if " ++ condition ++ "\n"

variable {rest : String} {kinds : List Node.Kind}

/-- A declaration and what stands behind it are read one after the other. -/
theorem reads_varLine {name value : String} (nonempty : name ≠ "")
    (oneWord : ∀ c ∈ name.toList, Text.isBlank c = false) (oneLine : '\n' ∉ value.toList)
    (behind : Reads (pieces rest.toList) kinds) :
    Reads (pieces (varLine name value ++ rest).toList)
      (.declare name (.parse (Text.trimmed value)) :: kinds) := by
  have split : (varLine name value ++ rest).toList = '@' :: (Keyword.declare.word.toList ++
      ' ' :: (name.toList ++ ' ' :: value.toList) ++ ['\n']) ++ rest.toList := by
    have start : "@var ".toList = '@' :: (Keyword.declare.word.toList ++ [' ']) := rfl
    have space : " ".toList = [' '] := rfl
    have newline : "\n".toList = ['\n'] := rfl
    simp [varLine, start, space, newline]
  have oneLineName : '\n' ∉ name.toList := by
    intro member
    cases oneWord _ member
  have whole : '\n' ∉ name.toList ++ ' ' :: value.toList := by
    rw [List.mem_append, not_or]
    exact ⟨oneLineName, Directive.newline_not_mem_space_cons oneLine⟩
  rw [split]
  refine .directive_line (Directive.newline_not_mem_space_cons whole)
    (Directive.isWordChar_head?_space _) ?_ behind
  intro line
  have some : name.toList ≠ [] := by
    intro nothing
    exact nonempty (String.toList_eq_nil_iff.mp nothing)
  have read := Directive.readDeclaration_of_name some oneWord value.toList line
  rwa [String.ofList_toList] at read

/-- The start of a chain and what stands behind it are read one after the other. -/
theorem reads_ifLine {text : String} {line : Nat} {condition : Condition}
    (oneLine : '\n' ∉ text.toList) (parsed : Condition.parse text line = .ok condition)
    (behind : Reads (pieces rest.toList) kinds) :
    Reads (pieces (ifLine text ++ rest).toList) (.ifThen condition :: kinds) := by
  have split : (ifLine text ++ rest).toList =
      '@' :: (Keyword.ifThen.word.toList ++ ' ' :: text.toList ++ ['\n']) ++ rest.toList := by
    have start : "@if ".toList = '@' :: (Keyword.ifThen.word.toList ++ [' ']) := rfl
    have newline : "\n".toList = ['\n'] := rfl
    simp [ifLine, start, newline]
  rw [split]
  refine .directive_line (Directive.newline_not_mem_space_cons oneLine)
    (Directive.isWordChar_head?_space _) ?_ behind
  intro line'
  rw [Directive.readPayload, Condition.parse_space_cons parsed]
  rfl

end Source

namespace Condition

variable {key literal name : String} {op : Operator}

/-- In the scope where it is declared with the text of a literal, a variable is compared as
the literal is. -/
theorem holds_declare_literal (comparison : op.isComparison = true) (right : Plain literal)
    (ordinary : literal ∉ ["true", "false", "null"]) (other : name ≠ key) {scope : Scope}
    (lacks : scope.Lacks literal) (source source' : String) :
    holds ⟨source', .join key op name⟩ (scope.declare name (.parse literal)) =
      holds ⟨source, .join key op literal⟩ scope := by
  rw [holds_comparison comparison, holds_comparison comparison,
    scope.reference_declare_of_ne _ (Ne.symm other), scope.comparand_declare_self,
    lacks.comparand_eq ordinary]
  exact op.apply_congr rfl (Operand.primitive_variable_parse right.unquoted)

/-- **A literal and a variable declared with the same text compare alike.** Let the left
operand, the literal and the name of the variable be without quotes and operators, the literal
no keyword, and the name one word and not the left operand. However they are spaced, the
comparisons with the literal and with the variable are read as such. Where the literal is not
a name with a value, the one holds as the other does once the variable is declared. So an
`@if` line with the one, and an `@var` line and an `@if` line with the other, are read in front
of any source, and lead any walk into the same arm. -/
theorem declared_compares_as_literal (comparison : op.isComparison = true) (left : Plain key)
    (right : Plain literal) (ordinary : literal ∉ ["true", "false", "null"]) (word : Plain name)
    (oneWord : ∀ c ∈ name.toList, Text.isBlank c = false) (other : name ≠ key)
    (spacing spacing' : Spacing) (line line' : Nat) :
    ∃ direct named,
      parse (spacing.join key op literal) line = .ok direct ∧
      parse (spacing'.join key op name) line' = .ok named ∧
      direct.form = .join key op literal ∧ named.form = .join key op name ∧
      (∀ scope, scope.Lacks literal →
        named.holds (scope.declare name (.parse literal)) = direct.holds scope) ∧
      ('\n' ∉ (spacing.join key op literal).toList → '\n' ∉ (spacing'.join key op name).toList →
        ∀ rest nodes, (Source.scan rest).result = .ok nodes → ∃ first second,
          (Source.scan (Source.ifLine (spacing.join key op literal) ++ rest)).result = .ok first ∧
          first.map Node.kind = .ifThen direct :: nodes.map Node.kind ∧
          (Source.scan (Source.varLine name literal ++
            (Source.ifLine (spacing'.join key op name) ++ rest))).result = .ok second ∧
          second.map Node.kind =
            .declare name (.parse literal) :: .ifThen named :: nodes.map Node.kind) ∧
      ∀ policy (progress : Progress), progress.scope.Lacks literal → ∀ place place' place'',
        ∃ after after',
          (progress.walk policy [⟨place, .ifThen direct⟩]).result = .ok after ∧
          (progress.walk policy [⟨place', .declare name (.parse literal)⟩,
            ⟨place'', .ifThen named⟩]).result = .ok after' ∧
          after.chains = progress.chains.start (direct.holds progress.scope) ∧
          after'.chains = after.chains := by
  have binary := ne_negation_of_isComparison comparison
  have direct := parse_write (left.legible_join binary right.bare) spacing line
  have named := parse_write (left.legible_join binary word.bare) spacing' line'
  have alike {scope : Scope} (lacks : scope.Lacks literal) :=
    holds_declare_literal comparison right ordinary other lacks
      (Text.trimmed (spacing.join key op literal)) (Text.trimmed (spacing'.join key op name))
  refine ⟨_, _, direct, named, rfl, rfl, fun scope => alike, ?_, ?_⟩
  · intro oneLine oneLine' rest nodes scanned
    have behind : Source.Reads (Source.pieces rest.toList) (nodes.map Node.kind) :=
      .of_result scanned
    have value : '\n' ∉ literal.toList := by
      intro member
      apply oneLine
      simp [Spacing.join, member]
    have declared := Source.reads_varLine word.nonempty oneWord value
      (Source.reads_ifLine oneLine' named behind)
    rw [Text.trimmed_eq_self right.trimmed] at declared
    obtain ⟨first, scannedFirst, kinds⟩ :=
      (Source.reads_ifLine oneLine direct behind).exists_result 1
    obtain ⟨second, scannedSecond, kinds'⟩ := declared.exists_result 1
    exact ⟨first, second, scannedFirst, kinds, scannedSecond, kinds'⟩
  · intro policy progress lacks place place' place''
    refine ⟨_, _, rfl, rfl, rfl, ?_⟩
    exact congrArg progress.chains.start (alike lacks)

/-- A numeral that ends in a point, compared with a text that counts as a number. -/
theorem declared_compares_as_literal_point :
    Operator.isComparison .atLeast = true ∧ Plain "a" ∧ Plain "5." ∧ Plain "n" ∧
      Scope.Lacks ⟨.object [("a", .string " 5")], ∅⟩ "5." ∧
      ∃ direct named, parse "a >= 5." 1 = .ok direct ∧ parse "a >= n" 2 = .ok named ∧
        direct.holds ⟨.object [("a", .string " 5")], ∅⟩ = true ∧
        named.holds (Scope.declare ⟨.object [("a", .string " 5")], ∅⟩ "n" (.parse "5.")) = true ∧
        ∃ nodes, (Source.scan "@var n 5.\n@if a >= n\n@endif").result = .ok nodes ∧
          nodes.map Node.kind = [.declare "n" (.parse "5."), .ifThen named, .endIf] := by
  have comparison : Operator.isComparison .atLeast = true := rfl
  have left : Plain "a" := plain_iff.mpr (by decide)
  have right : Plain "5." := plain_iff.mpr (by decide)
  have word : Plain "n" := plain_iff.mpr (by decide)
  have oneWord : ∀ c ∈ "n".toList, Text.isBlank c = false :=
    List.forall_mem_singleton.mpr (by decide)
  have lacks : Scope.Lacks ⟨.object [("a", .string " 5")], ∅⟩ "5." := ⟨rfl, rfl⟩
  obtain ⟨direct, named, readDirect, readNamed, form, _, alike, lines, _⟩ :=
    declared_compares_as_literal comparison left right (by decide) word oneWord (by decide)
      .single .single 1 2
  obtain ⟨_, nodes, _, _, scanned, kinds⟩ :=
    lines (by decide) (by decide) "@endif" [⟨1, .endIf⟩] rfl
  have truth : direct.holds ⟨.object [("a", .string " 5")], ∅⟩ = true := by
    simp only [holds, form]
    decide +kernel
  exact ⟨comparison, left, right, word, lacks, direct, named, readDirect, readNamed, truth,
    (alike _ lacks).trans truth, nodes, scanned, kinds⟩

end Condition

end Stencil
