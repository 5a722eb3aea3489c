import Stencil.Proofs.Conditions.Literals
import Stencil.Proofs.Offsets

/-!
Conditions by byte offsets.

A condition is read with the offset of its operator: the text is searched character by character
for operators outside of quotes, and cut before the one that is found and behind its symbol. A
literal operand is cut behind its first quote and before its last one. All of this stays within
the text and between its characters: the search goes over the tokens of the condition
(`findOperatorFrom_eq`), the texts around the operator are those around its token
(`slices_of_operator`), and quotes have one byte each. So reading and evaluating come to the same
as on characters, and no slice slips (`parse_eq`, `holds_eq`).
-/

namespace Stencil.Offsets

open Condition (Flaw Form Reading Token isQuote tokens tokensFrom operators textBefore textAfter)

/-! ### Searching the operator -/

/-- Goes through the characters of a condition, given the operator that has been found and the
quote that is open. -/
def findOperatorFrom (source : String) (line : Nat) :
    Option (Nat × Operator) → Option Char → List (Nat × Char) →
      Except Stop (Option (Nat × Operator))
  | found, _, [] => .ok found
  | found, some quote, (_, c) :: chars =>
    findOperatorFrom source line found (if c = quote then none else some quote) chars
  | found, none, (place, c) :: chars =>
    if isQuote c then
      findOperatorFrom source line found (some c) chars
    else do
      let ahead ← sliceFrom source place
      match Operator.atStart? ahead.toList, found with
      | none, _ => findOperatorFrom source line found none chars
      | some op, some (_, first) =>
        .error (.fault (.invalidCondition source (Flaw.secondOperator first op).message line))
      | some op, none =>
        findOperatorFrom source line (some (place, op)) none
          (chars.drop (op.symbol.utf8ByteSize - 1))
termination_by _ _ chars => chars.length
decreasing_by all_goals simp only [List.length_cons, List.length_drop]; omega

/-- The only operator of a condition, with its offset. -/
def findOperator (source : String) (line : Nat) : Except Stop (Option (Nat × Operator)) :=
  findOperatorFrom source line none none (indexed 0 source.toList)

/-- What the search comes to among tokens from an offset on. -/
def findAmong (source : String) (line : Nat) :
    Option (Nat × Operator) → Nat → List Token → Except Stop (Option (Nat × Operator))
  | found, _, [] => .ok found
  | found, place, .character c :: later => findAmong source line found (place + c.utf8Size) later
  | some (_, first), _, .operator op :: _ =>
    .error (.fault (.invalidCondition source (Flaw.secondOperator first op).message line))
  | none, place, .operator op :: later =>
    findAmong source line (some (place, op)) (place + op.symbol.utf8ByteSize) later

/-- Where the reading stands if the quote is open. -/
def readingIn : Option Char → Reading
  | none => .plain 0
  | some quote => .quoted quote

theorem indexed_drop (n place : Nat) (cs : List Char) :
    (indexed place cs).drop n = indexed (place + byteSize (cs.take n)) (cs.drop n) := by
  induction cs generalizing n place with
  | nil => simp [indexed]
  | cons c cs ih =>
    cases n with
    | zero => simp
    | succ n =>
      rw [indexed, List.drop_succ_cons, ih, List.take_succ_cons, List.drop_succ_cons, byteSize_cons,
        Nat.add_assoc]

/-- The characters of symbols have one byte each. -/
theorem byteSize_symbol (op : Operator) :
    op.symbol.utf8ByteSize = op.symbol.length ∧ byteSize op.symbol.toList = op.symbol.length := by
  cases op <;> exact ⟨rfl, rfl⟩

/-- Behind an operator the search goes on behind all of its symbol. -/
theorem indexed_behind_operator {op : Operator} {before cs rest : List Char} {c : Char}
    (begins : op.Begins (c :: cs) rest) :
    (indexed (byteSize before + c.utf8Size) cs).drop (op.symbol.utf8ByteSize - 1) =
      indexed (byteSize (before ++ op.symbol.toList)) rest := by
  have symbol : c :: cs.take (op.symbol.length - 1) = op.symbol.toList := by
    have positive := Condition.symbol_length_pos op
    have taken : (c :: cs).take op.symbol.length = op.symbol.toList := by
      rw [begins.eq, ← String.length_toList, List.take_left]
    rwa [← Nat.sub_add_cancel positive, List.take_succ_cons] at taken
  have bytes : c.utf8Size + byteSize (cs.take (op.symbol.length - 1)) =
      byteSize op.symbol.toList := by
    rw [← byteSize_cons, symbol]
  rw [(byteSize_symbol op).1, indexed_drop, begins.drop_eq, Nat.add_assoc, bytes, byteSize_append]

/-- Outside of quotes the text from an offset on is looked at, and the search goes on behind what
stands there. -/
theorem findOperatorFrom_outside {source : String} {before cs : List Char} {c : Char}
    (split : source.toList = before ++ c :: cs) (outside : isQuote c = false) (line : Nat)
    (found : Option (Nat × Operator)) :
    findOperatorFrom source line found none (indexed (byteSize before) (c :: cs)) =
      match Operator.atStart? (c :: cs), found with
      | none, _ => findOperatorFrom source line found none (indexed (byteSize (before ++ [c])) cs)
      | some op, some (_, first) =>
        .error (.fault (.invalidCondition source (Flaw.secondOperator first op).message line))
      | some op, none =>
        findOperatorFrom source line (some (byteSize before, op)) none
          (indexed (byteSize (before ++ op.symbol.toList))
            ((c :: cs).drop op.symbol.toList.length)) := by
  rw [indexed, findOperatorFrom, outside, if_neg Bool.false_ne_true, sliceFrom_of_split split]
  simp only [bind, Except.bind, String.toList_ofList]
  cases starts : Operator.atStart? (c :: cs) with
  | none => rw [byteSize_append, byteSize_singleton]
  | some op =>
    cases found with
    | some earlier => rfl
    | none =>
      simp only
      rw [indexed_behind_operator (Operator.begins_of_atStart? starts)]

/-- The search by offsets goes over the tokens. The induction is on the length of what is left,
since an operator is passed as a whole. -/
theorem findOperatorFrom_eq {source : String} {before cs : List Char}
    (split : source.toList = before ++ cs) (line : Nat) (found : Option (Nat × Operator))
    (open? : Option Char) :
    findOperatorFrom source line found open? (indexed (byteSize before) cs) =
      findAmong source line found (byteSize before) (tokensFrom (readingIn open?) cs) := by
  induction size : cs.length using Nat.strongRecOn generalizing before cs found open? with
  | ind size shorter =>
    subst size
    cases cs with
    | nil => rw [indexed, findOperatorFrom, tokensFrom, findAmong]
    | cons c cs =>
      have split' : source.toList = (before ++ [c]) ++ cs := by
        rw [split, List.append_assoc, List.singleton_append]
      have place : byteSize before + c.utf8Size = byteSize (before ++ [c]) := by
        rw [byteSize_append, byteSize_singleton]
      have next := fun found open? => shorter _ (Nat.lt_succ_self _) split' found open? rfl
      cases open? with
      | some quote =>
        rw [indexed, findOperatorFrom, readingIn, tokensFrom, findAmong, place, next]
        congr 2
        split <;> rfl
      | none =>
        cases outside : isQuote c with
        | true =>
          rw [indexed, findOperatorFrom, readingIn, tokensFrom, if_pos outside, if_pos outside,
            findAmong, place, next]
          rfl
        | false =>
          rw [findOperatorFrom_outside split outside, readingIn, tokensFrom, outside,
            if_neg Bool.false_ne_true]
          cases starts : Operator.atStart? (c :: cs) with
          | none =>
            simp only
            rw [findAmong, place, next]
            rfl
          | some op =>
            cases found with
            | some earlier => rfl
            | none =>
              have begins := Operator.begins_of_atStart? starts
              have behind : source.toList = (before ++ op.symbol.toList) ++
                  (c :: cs).drop op.symbol.toList.length := by
                rw [List.append_assoc, ← begins.eq, split]
              simp only
              rw [shorter _ begins.length_lt behind _ _ rfl, findAmong, Condition.tokensFrom_plain,
                begins.drop_eq, byteSize_append, utf8ByteSize_eq]
              rfl

/-- Behind an operator that has been found there must not be another. -/
theorem findAmong_some (source : String) (line : Nat) (earlier : Nat × Operator) (place : Nat)
    (list : List Token) :
    findAmong source line (some earlier) place list =
      match operators list with
      | [] => .ok (some earlier)
      | op :: _ => .error (.fault (.invalidCondition source
          (Flaw.secondOperator earlier.2 op).message line)) := by
  induction list generalizing place with
  | nil => rfl
  | cons token later ih =>
    cases token with
    | character c => exact ih _
    | operator op => rfl

/-- The only operator is found behind the text before it. -/
theorem findAmong_none (source : String) (line place : Nat) (list : List Token) :
    findAmong source line none place list =
      match operators list with
      | [] => .ok none
      | [op] => .ok (some (place + byteSize (textBefore list), op))
      | first :: second :: _ => .error (.fault (.invalidCondition source
          (Flaw.secondOperator first second).message line)) := by
  induction list generalizing place with
  | nil => rfl
  | cons token later ih =>
    cases token with
    | character c =>
      have before : textBefore (.character c :: later) = c :: textBefore later := rfl
      have same : operators (.character c :: later) = operators later := rfl
      rw [findAmong, ih, same, before, byteSize_cons, Nat.add_assoc]
    | operator op =>
      have before : textBefore (.operator op :: later) = [] := rfl
      have same : operators (.operator op :: later) = op :: operators later := rfl
      rw [findAmong, findAmong_some, same, before]
      cases operators later <;> rfl

/-! ### Reading -/

/-- Reads a condition that stands on a source line. -/
def parse (text : String) (line : Nat) : Except Stop Condition :=
  let source := Text.trimmed text
  if source = "" then
    .error (.fault (.invalidCondition source Flaw.blank.message line))
  else do
    match ← findOperator source line with
    | none => return ⟨source, .truth source⟩
    | some (place, op) =>
      let left ← slice source 0 place
      let right ← sliceFrom source (place + op.symbol.utf8ByteSize)
      match Form.ofParts (Text.trim left.toList) op (Text.trim right.toList) with
      | .ok form => return ⟨source, form⟩
      | .error flaw => .error (.fault (.invalidCondition source flaw.message line))

/-- A text is what stands around its first operator, and the operator. -/
theorem text_eq_of_operator {list : List Token} {op : Operator} {later : List Operator}
    (found : operators list = op :: later) :
    list.flatMap Token.text = textBefore list ++ (op.symbol.toList ++ textAfter list) := by
  induction list with
  | nil => cases found
  | cons token rest ih =>
    cases token with
    | character c => exact congrArg (c :: ·) (ih found)
    | operator other =>
      obtain ⟨rfl, _⟩ := List.cons.inj found
      rfl

/-- The slices around the operator are the texts before and after it. -/
theorem slices_of_operator {source : String} {op : Operator} {later : List Operator}
    (found : operators (tokens source.toList) = op :: later) :
    slice source 0 (byteSize (textBefore (tokens source.toList))) =
        .ok (String.ofList (textBefore (tokens source.toList))) ∧
      sliceFrom source (byteSize (textBefore (tokens source.toList)) + op.symbol.utf8ByteSize) =
        .ok (String.ofList (textAfter (tokens source.toList))) := by
  have split := text_eq_of_operator found
  rw [Condition.text_tokens] at split
  constructor
  · have front : source.toList = [] ++ (textBefore (tokens source.toList) ++
        (op.symbol.toList ++ textAfter (tokens source.toList))) := split
    have cut := slice_of_split front
    rwa [byteSize_nil, Nat.zero_add] at cut
  · rw [← List.append_assoc] at split
    have cut := sliceFrom_of_split split
    rwa [byteSize_append, ← utf8ByteSize_eq] at cut

/-- By offsets a condition is read as it is on characters. -/
theorem parse_eq (text : String) (line : Nat) :
    parse text line = (Condition.parse text line).mapError .fault := by
  have trimmed : Text.trim text.toList = (Text.trimmed text).toList := String.toList_ofList.symm
  rw [parse, Condition.parse, trimmed]
  generalize Text.trimmed text = source
  have searched : findOperator source line = findAmong source line none 0 (tokens source.toList) :=
    @findOperatorFrom_eq _ [] _ rfl line none none
  rw [findAmong_none, Nat.zero_add] at searched
  by_cases blank : source = ""
  · subst blank
    rfl
  · have some : source.toList ≠ [] := fun none => blank (String.toList_eq_nil_iff.mp none)
    rw [if_neg blank, Form.read, if_neg some, String.ofList_toList, searched]
    cases found : operators (tokens source.toList) with
    | nil =>
      simp only [found]
      rfl
    | cons op later =>
      obtain ⟨left, right⟩ := slices_of_operator found
      cases later with
      | nil =>
        simp only [found, bind, Except.bind, left, right, String.toList_ofList]
        cases Form.ofParts _ op _ <;> rfl
      | cons second later =>
        simp only [found]
        rfl

/-! ### Evaluation -/

/-- The text has at least two bytes, and begins and ends with the quote. -/
def isQuotedBy (text : String) (quote : Char) : Bool :=
  2 ≤ text.utf8ByteSize && text.toList.head? == some quote && text.toList.getLast? == some quote

/-- A text without the quotes around it. -/
def unquote (text : String) : Except Stop String :=
  match ['"', '\''].find? (isQuotedBy text) with
  | some _ => slice text 1 (text.utf8ByteSize - 1)
  | none => .ok text

/-- The right operand of a comparison. -/
def comparand (scope : Scope) (text : String) : Except Stop Operand :=
  match scope.named? text with
  | some operand => .ok operand
  | none =>
    match FiniteDouble.ofText? text with
    | some d => .ok (.number (.finite d))
    | none => (unquote text).map .text

/-- The condition holds in a scope. -/
def holds (condition : Condition) (scope : Scope) : Except Stop Bool :=
  match condition.form with
  | .truth operand => .ok (scope.reference operand).isTruthy
  | .negation operand => .ok (Operator.negation.apply .undefined (scope.reference operand))
  | .join left op right => do
    let operand ← if op.isLogical then .ok (scope.reference right) else comparand scope right
    return op.apply (scope.reference left) operand

/-- Quotes have one byte each. -/
theorem utf8Size_of_isQuote {quote : Char} (quotes : isQuote quote = true) :
    quote.utf8Size = 1 := by
  rcases Condition.isQuote_iff.mp quotes with rfl | rfl <;> rfl

/-- Between two quotes stands a slice. -/
theorem slice_between_quotes {text : String} {quote : Char} (quotes : isQuote quote = true)
    {inner : List Char} (split : text.toList = quote :: (inner ++ [quote])) :
    slice text 1 (text.utf8ByteSize - 1) = .ok (String.ofList inner) := by
  have one := utf8Size_of_isQuote quotes
  have stop : text.utf8ByteSize - 1 = 1 + byteSize inner := by
    rw [utf8ByteSize_eq, split, byteSize_cons, byteSize_append, byteSize_singleton, one]
    omega
  have cut := @slice_of_split text [quote] inner [quote] split
  rwa [byteSize_singleton, one, ← stop] at cut

theorem isQuotedBy_iff {text : String} {quote : Char} (quotes : isQuote quote = true) :
    isQuotedBy text quote = true ↔ ∃ inner, text.toList = quote :: (inner ++ [quote]) := by
  simp only [isQuotedBy, Bool.and_eq_true, decide_eq_true_eq, beq_iff_eq]
  constructor
  · rintro ⟨⟨long, head⟩, last⟩
    obtain ⟨rest, split⟩ := List.head?_eq_some_iff.mp head
    rw [utf8ByteSize_eq, split, byteSize_cons, utf8Size_of_isQuote quotes] at long
    rw [split] at last
    cases rest with
    | nil => exact absurd long (by decide)
    | cons c rest =>
      rw [List.getLast?_cons_cons] at last
      obtain ⟨inner, whole⟩ := List.getLast?_eq_some_iff.mp last
      exact ⟨inner, by rw [split, whole]⟩
  · rintro ⟨inner, split⟩
    have one := utf8Size_of_isQuote quotes
    rw [utf8ByteSize_eq, split, byteSize_cons, byteSize_append, byteSize_singleton, one,
      ← List.cons_append, List.getLast?_concat]
    exact ⟨⟨by omega, rfl⟩, rfl⟩

theorem unquote_eq (text : String) :
    unquote text = .ok (String.ofList (Stencil.unquote text.toList)) := by
  unfold unquote
  split
  · next quote found =>
    have quotes : isQuote quote = true := by
      have member := List.mem_of_find?_eq_some found
      simpa [Condition.isQuote_iff] using member
    obtain ⟨inner, split⟩ := (isQuotedBy_iff quotes).mp (List.find?_some found)
    rw [slice_between_quotes quotes split, split, unquote_quoted quotes]
  · next none =>
    have same : Stencil.unquote text.toList = text.toList := by
      cases split : text.toList with
      | nil => rfl
      | cons c rest =>
        rw [Stencil.unquote, if_neg]
        rintro ⟨either, last⟩
        obtain ⟨inner, rfl⟩ := List.getLast?_eq_some_iff.mp last
        have quoted := (isQuotedBy_iff (Condition.isQuote_iff.mpr either)).mpr ⟨inner, split⟩
        have among : c ∈ ['"', '\''] := by simpa using either
        exact List.find?_eq_none.mp none c among quoted
    rw [same, String.ofList_toList]

theorem comparand_eq (scope : Scope) (text : String) :
    comparand scope text = .ok (scope.comparand text) := by
  rw [comparand, Scope.comparand, Operand.literal]
  cases scope.named? text with
  | some operand => rfl
  | none =>
    cases FiniteDouble.ofText? text with
    | some d => rfl
    | none =>
      rw [unquote_eq]
      rfl

/-- By offsets a condition holds where it holds. -/
theorem holds_eq (condition : Condition) (scope : Scope) :
    holds condition scope = .ok (condition.holds scope) := by
  obtain ⟨source, form⟩ := condition
  cases form with
  | truth operand => rfl
  | negation operand => rfl
  | join left op right =>
    simp only [holds, Condition.holds, Condition.rightOperand]
    cases op.isLogical with
    | true => rfl
    | false =>
      rw [comparand_eq]
      rfl

end Stencil.Offsets
