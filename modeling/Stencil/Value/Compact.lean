import Stencil.Number.Layout
import Stencil.Value.Basic

/-!
Compact JSON text, and the text of a value in output.

Compact text has no spaces. Strings escape quotes, backslashes and the
characters below U+0020, and nothing else. A double always shows that it is one:
it keeps `.0`, or has an exponent when its leading exponent is outside
`-5 … 15`. In output, a string stands for itself, null for nothing, a number for
its plain text, and arrays and objects are written compactly
(`Value.display`).
-/

namespace Stencil

/-! ### Scalars -/

/-- The text of doubles inside arrays and objects; ties between two shortest
decimals go to the even one. -/
def Layout.compact : Layout :=
  ⟨fun leading => -5 ≤ leading && leading ≤ 15, true, .even⟩

namespace Compact

/-- The text of a number. -/
def number : Number → List Char
  | .int n => Digits.ofInt n
  | .double d => (Layout.compact.write d).toList

/-- One character of a string: the short escapes where there is one, other
control characters by their code in four digits. -/
def character (c : Char) : List Char :=
  match c with
  | '"' => ['\\', '"']
  | '\\' => ['\\', '\\']
  | '\x08' => ['\\', 'b']
  | '\x0c' => ['\\', 'f']
  | '\n' => ['\\', 'n']
  | '\r' => ['\\', 'r']
  | '\t' => ['\\', 't']
  | c =>
    if c.toNat < 0x20 then
      ['\\', 'u', '0', '0', (c.toNat / 16).digitChar, (c.toNat % 16).digitChar]
    else
      [c]

/-- A string between quotes. -/
def quoted (text : String) : List Char :=
  '"' :: text.toList.flatMap character ++ ['"']

/-! ### Values -/

mutual

/-- The text of a value. -/
def value : Value → List Char
  | .null => "null".toList
  | .bool b => (if b then "true" else "false").toList
  | .number n => number n
  | .string text => quoted text
  | .array list => '[' :: items list ++ [']']
  | .object list => '{' :: fields list ++ ['}']

/-- Items, with commas between them. -/
def items : List Value → List Char
  | [] => []
  | [item] => value item
  | item :: rest => value item ++ ',' :: items rest

/-- Fields, with commas between them. -/
def fields : List (String × Value) → List Char
  | [] => []
  | [(key, held)] => quoted key ++ ':' :: value held
  | (key, held) :: rest => quoted key ++ ':' :: value held ++ ',' :: fields rest

end

end Compact

/-- The compact text of a value. -/
def Value.compact (v : Value) : String :=
  String.ofList (Compact.value v)

/-- The text of a value in output. -/
def Value.display : Value → String
  | .null => ""
  | .bool b => if b then "true" else "false"
  | .number (.int n) => String.ofList (Digits.ofInt n)
  | .number (.double d) => Layout.plain.write d
  | .string text => text
  | .array list => (Value.array list).compact
  | .object list => (Value.object list).compact

example : (Value.array [.null, .string "a\"\x01é", .object [("k", .number (.int (-3)))]]).compact =
    "[null,\"a\\\"\\u0001é\",\x7b\"k\":-3\x7d]" := by
  decide +kernel

end Stencil
