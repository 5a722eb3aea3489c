import Stencil.Operator

/-!
The tokens of a condition.

Reading from left to right, a quote opens quoted text that runs to the next
quote of the same kind, or to the end if there is none. Outside quoted text the
longest operator at each place is taken; every other character stands for
itself. Nothing is lost in this: the texts of the tokens make up the condition
(`text_tokens`).
-/

namespace Stencil.Condition

/-- A character of an operand, or an operator. -/
inductive Token where
  | character (c : Char)
  | operator (op : Operator)
  deriving DecidableEq

/-- The characters that a token stands for. -/
def Token.text : Token → List Char
  | .character c => [c]
  | .operator op => op.symbol.toList

/-- The operator that a token is. -/
def Token.operator? : Token → Option Operator
  | .character _ => none
  | .operator op => some op

/-- A quote of either kind. -/
def isQuote (c : Char) : Bool :=
  c == '"' || c == '\''

/-- Where the reading of a condition stands. -/
inductive Reading where
  /-- Outside quoted text, with this many characters of an operator still to pass
  over. -/
  | plain (pending : Nat)
  /-- Inside quoted text that the character closes. -/
  | quoted (quote : Char)

/-- The tokens from a place on. -/
def tokensFrom : Reading → List Char → List Token
  | _, [] => []
  | .quoted quote, c :: cs =>
    .character c :: tokensFrom (if c = quote then .plain 0 else .quoted quote) cs
  | .plain (pending + 1), _ :: cs => tokensFrom (.plain pending) cs
  | .plain 0, c :: cs =>
    if isQuote c then
      .character c :: tokensFrom (.quoted c) cs
    else
      match Operator.atStart? (c :: cs) with
      | some op => .operator op :: tokensFrom (.plain (op.symbol.length - 1)) cs
      | none => .character c :: tokensFrom (.plain 0) cs

/-- The tokens of a condition. -/
def tokens (cs : List Char) : List Token :=
  tokensFrom (.plain 0) cs

/-- The operators of a condition, from left to right. -/
def operators (tokens : List Token) : List Operator :=
  tokens.filterMap Token.operator?

/-- The text before the first operator. -/
def textBefore (tokens : List Token) : List Char :=
  (tokens.takeWhile fun token => token.operator?.isNone).flatMap Token.text

/-- The text after the first operator. -/
def textAfter (tokens : List Token) : List Char :=
  ((tokens.dropWhile fun token => token.operator?.isNone).drop 1).flatMap Token.text

example : operators (tokens "a >= '<' \"||\" b!='c".toList) = [.atLeast, .unequal] := by decide

/-! ### Nothing is lost -/

/-- An operator that is found stands there. -/
theorem atStart?_append {cs : List Char} {op : Operator} (h : Operator.atStart? cs = some op) :
    cs = op.symbol.toList ++ cs.drop op.symbol.toList.length := by
  have fits := List.find?_some h
  obtain ⟨rest, rfl⟩ := List.isPrefixOf_iff_prefix.mp fits
  rw [List.drop_left]

theorem symbol_length_pos (op : Operator) : 0 < op.symbol.length := by
  cases op <;> decide

/-- What is read from a place on: all that follows it, less the part of an operator
that is passed over. -/
def Reading.ahead : Reading → List Char → List Char
  | .plain pending, cs => cs.drop pending
  | .quoted _, cs => cs

theorem text_tokensFrom (reading : Reading) (cs : List Char) :
    (tokensFrom reading cs).flatMap Token.text = reading.ahead cs := by
  induction cs generalizing reading with
  | nil => cases reading <;> simp [tokensFrom, Reading.ahead]
  | cons c cs ih =>
    cases reading with
    | quoted quote =>
      by_cases closing : c = quote <;>
        simp [tokensFrom, closing, ih, Token.text, Reading.ahead]
    | plain pending =>
      cases pending with
      | succ pending => simp [tokensFrom, ih, Reading.ahead]
      | zero =>
        simp only [tokensFrom]
        split
        · simp [ih, Token.text, Reading.ahead]
        · split
          next op found =>
            have stands := atStart?_append found
            obtain ⟨n, eq⟩ : ∃ n, op.symbol.length = n + 1 :=
              ⟨op.symbol.length - 1, by have := symbol_length_pos op; omega⟩
            simp only [List.flatMap_cons, ih, Token.text, Reading.ahead]
            rw [String.length_toList, eq, List.drop_succ_cons] at stands
            simpa [eq] using stands.symm
          next => simp [ih, Token.text, Reading.ahead]

/-- The texts of the tokens make up the condition. -/
theorem text_tokens (cs : List Char) : (tokens cs).flatMap Token.text = cs :=
  text_tokensFrom (.plain 0) cs

end Stencil.Condition
