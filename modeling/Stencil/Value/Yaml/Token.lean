import Stencil.Value.Basic

/-!
The tokens of a YAML text.

A text is read line by line (`Reading.step`). A line holds dashes, each of which
begins an item, then a key, which ends in a colon, then a plain scalar; any of
these may be absent. A token stands at a column, by which items and fields find
their places. The lines after a scalar continue it as long as they stand deeper
than the item or field that the scalar belongs to: one line break counts as a
space, and of several the first one is dropped. Keys stand on one line.

Quotes, brackets, anchors, tags, block scalars, keys with a question mark and
document marks are refused.
-/

namespace Stencil.Yaml

/-- A token and its column. -/
inductive Token where
  | dash (column : Nat)
  | key (column : Nat) (text : String)
  | scalar (column : Nat) (text : List Char)
  deriving DecidableEq

namespace Token

def column : Token → Nat
  | .dash column | .key column _ | .scalar column _ => column

def isDash : Token → Bool
  | .dash _ => true
  | _ => false

def isKey : Token → Bool
  | .key _ _ => true
  | _ => false

def isScalar : Token → Bool
  | .scalar _ _ => true
  | _ => false

end Token

/-! ### Lines -/

/-- A line of the text, and the character that its line break counts as. -/
structure Line where
  text : List Char
  ending : Char

/-- What a line break counts as: most are newlines, and the separators of lines and of
paragraphs are themselves. -/
def lineBreak? (c : Char) : Option Char :=
  if c = '\n' ∨ c = '\r' ∨ c = '\x85' then
    some '\n'
  else if c = '\u2028' ∨ c = '\u2029' then
    some c
  else
    none

/-- The lines of a text. The last one ends with the text. -/
def lines : List Char → List Line
  | [] => [⟨[], '\n'⟩]
  | '\r' :: '\n' :: cs => ⟨[], '\n'⟩ :: lines cs
  | c :: cs =>
    match lineBreak? c, lines cs with
    | some ending, more => ⟨[], ending⟩ :: more
    | none, line :: more => { line with text := c :: line.text } :: more
    | none, [] => [⟨[c], '\n'⟩]

/-- The blanks inside a line. -/
def isSpace (c : Char) : Bool :=
  c == ' ' || c == '\t'

/-- The text ends, or goes on with a blank. -/
def endsWord (cs : List Char) : Bool :=
  cs.head?.all isSpace

/-- The line begins with three dashes or three points. -/
def isDocumentMark : List Char → Bool
  | '-' :: '-' :: '-' :: rest | '.' :: '.' :: '.' :: rest => endsWord rest
  | _ => false

/-! ### Plain text -/

/-- Plain text may begin here. A dash, colon or question mark needs more text right
behind it. -/
def beginsPlain : List Char → Bool
  | [] => false
  | c :: cs =>
    if ['-', ':', '?'].contains c then
      !endsWord cs
    else
      !isSpace c && !"#,[]\x7b\x7d&*!|>'\"%@`".toList.contains c

/-- The characters before a comment or a colon that ends a key, and the rest from there
on. A comment begins behind a blank; the flag tells that one stands right before. -/
def cutPlain (afterBlank : Bool) : List Char → List Char × List Char
  | [] => ([], [])
  | c :: cs =>
    if c = '#' ∧ afterBlank ∨ c = ':' ∧ endsWord cs then
      ([], c :: cs)
    else
      let (text, rest) := cutPlain (isSpace c) cs
      (c :: text, rest)

/-- Plain text without the blanks at its end, and the rest of the line: nothing, a
comment, or a colon. -/
def plain (cs : List Char) : List Char × List Char :=
  let (text, rest) := cutPlain true cs
  ((text.reverse.dropWhile isSpace).reverse, rest)

example : plain "a b\t# c".toList = ("a b".toList, "# c".toList) ∧
    plain "a:b : c".toList = ("a:b".toList, ": c".toList) := by
  decide

/-! ### Reading -/

/-- A scalar that the next lines may continue. -/
structure Unfinished where
  column : Nat
  /-- The least column of a line that continues it. -/
  least : Nat
  text : List Char
  /-- The line breaks since the text. -/
  breaks : List Char

/-- A text that has been read so far. -/
structure Reading where
  /-- The tokens, last one first. -/
  tokens : List Token
  unfinished? : Option Unfinished

/-- What line breaks inside a scalar count as. -/
def fold : List Char → List Char
  | ['\n'] => [' ']
  | '\n' :: more => more
  | breaks => breaks

namespace Unfinished

/-- The scalar with more text. -/
def extend (scalar : Unfinished) (text : List Char) (ending : Char) : Unfinished :=
  { scalar with text := scalar.text ++ fold scalar.breaks ++ text, breaks := [ending] }

def token (scalar : Unfinished) : Token :=
  .scalar scalar.column scalar.text

end Unfinished

/-- A key and the blanks behind it are no longer than this. -/
def maxKeyLength : Nat :=
  1024

namespace Reading

def push (reading : Reading) (token : Token) : Reading :=
  { reading with tokens := token :: reading.tokens }

/-- The next lines do not continue a scalar. -/
def close (reading : Reading) : Reading :=
  match reading.unfinished? with
  | some scalar => ⟨scalar.token :: reading.tokens, none⟩
  | none => reading

/-- The item or field that a scalar belongs to stands right before it or on an earlier
line, and no deeper. The lines that continue the scalar are deeper than that. -/
def least (reading : Reading) (column : Nat) : Nat :=
  match reading.tokens.find? fun token => !token.isScalar && token.column ≤ column with
  | some token => token.column + 1
  | none => 0

/-- Takes a scalar. A comment behind it ends it. -/
def scalar (reading : Reading) (column : Nat) (text : List Char) (ending : Char)
    (commented : Bool) : Reading :=
  let begun := { reading with
    unfinished? := some ⟨column, reading.least column, text, [ending]⟩ }
  if commented then begun.close else begun

/-- Takes what follows a key on its line. -/
def value (reading : Reading) (column : Nat) (cs : List Char) (ending : Char) :
    Option Reading :=
  match cs with
  | [] | '#' :: _ => some reading
  | cs =>
    let (text, rest) := plain cs
    if beginsPlain cs && rest.head? != some ':' then
      some (reading.scalar column text ending (rest != []))
    else
      none

/-- Takes a key with what follows it, or a scalar. -/
def keyOrScalar (reading : Reading) (column : Nat) (cs : List Char) (ending : Char) :
    Option Reading :=
  if beginsPlain cs then
    match plain cs with
    | (text, ':' :: rest) =>
      let behind := rest.dropWhile isSpace
      if cs.length - (rest.length + 1) ≤ maxKeyLength then
        (reading.push (.key column (String.ofList text))).value
          (column + (cs.length - behind.length)) behind ending
      else
        none
    | (text, rest) => some (reading.scalar column text ending (rest != []))
  else
    none

/-- Takes a line that continues no scalar, from a column on. -/
def line (reading : Reading) (ending : Char) (column : Nat) : List Char → Option Reading
  | [] | '#' :: _ => some reading
  | ' ' :: cs => line reading ending (column + 1) cs
  | ['-'] => some (reading.push (.dash column))
  | '-' :: ' ' :: cs => line (reading.push (.dash column)) ending (column + 2) cs
  | cs => reading.keyOrScalar column cs ending

/-- Takes a line that may continue a scalar. Tabs do not count as depth. -/
def continued (reading : Reading) (scalar : Unfinished) (next : Line) : Option Reading :=
  let blanks := next.text.takeWhile isSpace
  let cs := next.text.dropWhile isSpace
  if (blanks.take scalar.least).contains '\t' then
    none
  else if cs = [] then
    some { reading with
      unfinished? := some { scalar with breaks := scalar.breaks ++ [next.ending] } }
  else if blanks.length < scalar.least then
    reading.close.line next.ending 0 next.text
  else
    match plain cs with
    | (_, ':' :: _) => none
    | ([], _) => some reading.close
    | (text, rest) =>
      let longer := { reading with unfinished? := some (scalar.extend text next.ending) }
      some (if rest = [] then longer else longer.close)

/-- Takes the next line. -/
def step (reading : Reading) (next : Line) : Option Reading :=
  if isDocumentMark next.text then
    none
  else
    match reading.unfinished? with
    | some scalar => reading.continued scalar next
    | none => reading.line next.ending 0 next.text

end Reading

/-- The tokens of a text. -/
def tokens? (cs : List Char) : Option (List Token) :=
  ((lines cs).foldlM Reading.step ⟨[], none⟩).map fun reading => reading.close.tokens.reverse

example : tokens? "- k : v\n   w\n-  # none".toList =
    some [.dash 0, .key 2 "k", .scalar 6 "v w".toList, .dash 0] := by
  decide +kernel

end Stencil.Yaml
