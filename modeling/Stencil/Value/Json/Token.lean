import Stencil.Value.Json.Number

/-!
The tokens of JSON text.

A token is a bracket, a comma, a colon, or a scalar with its value. Texts are cut
by a machine that takes one character at a time (`Lexing.step`): a string runs
to its closing quote, and any other scalar is a *word*, which runs to the next
blank, quote or mark. Words and strings are then read as a whole.
-/

namespace Stencil.Json

/-- A token. -/
inductive Token where
  | arrayOpen
  | arrayClose
  | objectOpen
  | objectClose
  | comma
  | colon
  | scalar (value : Value)

/-! ### Words -/

/-- The value that a word denotes: a name, or a number. -/
def word? (cs : List Char) : Option Value :=
  if cs = "null".toList then
    some .null
  else if cs = "true".toList then
    some (.bool true)
  else if cs = "false".toList then
    some (.bool false)
  else
    (number? cs).map .number

/-! ### Strings -/

/-- The 16-bit unit that four hexadecimal digits denote. -/
def unit? (a b c d : Char) : Option Nat :=
  Digits.inBase? 16 [a, b, c, d]

/-- The character that stands for itself or another after a backslash. -/
def shortEscape? : Char → Option Char
  | '"' => some '"'
  | '\\' => some '\\'
  | '/' => some '/'
  | 'b' => some '\x08'
  | 'f' => some '\x0c'
  | 'n' => some '\n'
  | 'r' => some '\r'
  | 't' => some '\t'
  | _ => none

/-- The text that stands between the quotes of a string. `high` is the first half
of a surrogate pair that waits for its second half. -/
def unescape (high : Option Nat) : List Char → Option (List Char)
  | [] => if high.isNone then some [] else none
  | '\\' :: 'u' :: a :: b :: c :: d :: rest => do
    let unit ← unit? a b c d
    match high with
    | some first =>
      if 0xDC00 ≤ unit ∧ unit < 0xE000 then
        return .ofNat (0x10000 + (first - 0xD800) * 0x400 + (unit - 0xDC00)) ::
          (← unescape none rest)
      else
        none
    | none =>
      if 0xD800 ≤ unit ∧ unit < 0xDC00 then
        unescape (some unit) rest
      else if 0xDC00 ≤ unit ∧ unit < 0xE000 then
        none
      else
        return .ofNat unit :: (← unescape none rest)
  | '\\' :: c :: rest => do
    let plain ← shortEscape? c
    if high.isNone then return plain :: (← unescape none rest) else none
  | c :: rest => do
    if high.isNone ∧ c ≠ '\\' ∧ 0x20 ≤ c.toNat then return c :: (← unescape none rest) else none

/-! ### Cutting -/

/-- What the machine has read of the token that it is in, last character
first. -/
inductive Lexing where
  | between
  | word (read : List Char)
  | string (read : List Char) (escaped : Bool)

/-- The blanks of JSON. -/
def isSpace (c : Char) : Bool :=
  c == ' ' || c == '\t' || c == '\n' || c == '\r'

/-- The token of a mark. -/
def mark? : Char → Option Token
  | '[' => some .arrayOpen
  | ']' => some .arrayClose
  | '{' => some .objectOpen
  | '}' => some .objectClose
  | ',' => some .comma
  | ':' => some .colon
  | _ => none

namespace Lexing

/-- A character that is not inside a token. -/
def start (c : Char) : List Token × Lexing :=
  if isSpace c then
    ([], .between)
  else if c = '"' then
    ([], .string [] false)
  else
    match mark? c with
    | some token => ([token], .between)
    | none => ([], .word [c])

/-- The tokens that a character completes, and the state after it. -/
def step : Lexing → Char → Option (List Token × Lexing)
  | .between, c => some (start c)
  | .word read, c =>
    if isSpace c || c == '"' || (mark? c).isSome then
      (word? read.reverse).map fun value => (.scalar value :: (start c).1, (start c).2)
    else
      some ([], .word (c :: read))
  | .string read true, c => some ([], .string (c :: read) false)
  | .string read false, c =>
    if c = '"' then
      (unescape none read.reverse).map fun text =>
        ([.scalar (.string (String.ofList text))], .between)
    else
      some ([], .string (c :: read) (c == '\\'))

/-- The tokens that the end of the text completes. -/
def finish : Lexing → Option (List Token)
  | .between => some []
  | .word read => (word? read.reverse).map fun value => [.scalar value]
  | .string _ _ => none

end Lexing

/-- The tokens of a text, from a state on. -/
def tokensFrom (state : Lexing) : List Char → Option (List Token)
  | [] => state.finish
  | c :: cs => do
    let (tokens, next) ← state.step c
    return tokens ++ (← tokensFrom next cs)

/-- The tokens of a text. -/
def tokens? (cs : List Char) : Option (List Token) :=
  tokensFrom .between cs

end Stencil.Json
