import Stencil.Text.Combining
import Stencil.Text.Unprintable

/-!
Quoted texts in messages.

A text that a message names stands between double quotes, and every character
can be told from it: quotes and backslashes stand behind a backslash, line
breaks, tabs and the null character are named by a letter or digit, and
characters that are not printable or combine with the one before them are named
by their code.
-/

namespace Stencil.Text

/-- A character between the quotes. -/
def quotedChar (c : Char) : List Char :=
  match c with
  | '"' => ['\\', '"']
  | '\\' => ['\\', '\\']
  | '\n' => ['\\', 'n']
  | '\r' => ['\\', 'r']
  | '\t' => ['\\', 't']
  | '\x00' => ['\\', '0']
  | c =>
    if isCombining c || !isPrintable c then
      '\\' :: 'u' :: '{' :: Nat.toDigits 16 c.toNat ++ ['}']
    else
      [c]

/-- The text between quotes. -/
def quoted (text : String) : String :=
  String.ofList ('"' :: text.toList.flatMap quotedChar ++ ['"'])

example : quoted "e\u0301\"\t\u2028 日'" = "\"e\\u\x7b301\x7d\\\"\\t\\u\x7b2028\x7d 日'\"" := by
  decide +kernel

end Stencil.Text
