import Stencil.Value.Yaml.Scalar
import Stencil.Value.Yaml.Token

/-!
A part of YAML as a value: block mappings, block sequences and plain scalars.

The tokens of a text form a forest, in which the tokens below a token are its
deeper followers; the items of a sequence may also stand as deep as the key that
they belong to. Tokens that stand side by side have the same column and are
either items, or fields, or a single scalar. When a key is repeated its last
value stands, and nesting deeper than `maxDepth` is refused.
-/

namespace Stencil

namespace Yaml

/-! ### The forest -/

/-- A token and the tokens that belong to it. -/
inductive Tree where
  | node (token : Token) (below : List Tree)

def Tree.token : Tree → Token
  | .node token _ => token

/-- The tree belongs to the token before it. -/
def Tree.isBelow (tree : Tree) (token : Token) : Bool :=
  token.column < tree.token.column ||
    token.column == tree.token.column && tree.token.isDash && token.isKey

/-- The forest of tokens. -/
def forest (tokens : List Token) : List Tree :=
  tokens.foldr (fun token trees =>
    .node token (trees.takeWhile (·.isBelow token)) :: trees.dropWhile (·.isBelow token)) []

/-! ### Values -/

/-- What a tree contributes to its surroundings. -/
inductive Entry where
  | item (value : Value)
  | field (key : String) (value : Value)
  | alone (value : Value)

def Entry.item? : Entry → Option Value
  | .item value => some value
  | _ => none

def Entry.field? : Entry → Option (String × Value)
  | .field key value => some (key, value)
  | _ => none

/-- The entry of a token, by the value of the tokens below it if there are any. -/
def entry? : Token → Option Value → Option Entry
  | .dash _, below => some (.item (below.getD .null))
  | .key _ text, below => some (.field text (below.getD .null))
  | .scalar _ text, none => (scalar? text).map .alone
  | .scalar _ _, some _ => none

/-- Items make an array, fields an object, and a scalar stands alone. -/
def combine : List Entry → Option Value
  | [] => some .null
  | [.alone value] => some value
  | .alone _ :: _ => none
  | entries@(.item _ :: _) => (entries.mapM Entry.item?).map .array
  | entries@(.field _ _ :: _) =>
    (entries.mapM Entry.field?).map fun fields =>
      .object (fields.foldl (fun sorted field => insertField field.1 field.2 sorted) [])

/-- The number of arrays and objects that may stand inside each other. -/
def maxDepth : Nat :=
  128

/-- How many arrays and objects may still be opened inside those that begin with a
tree. A scalar opens none. -/
def roomInside? (room : Nat) (first : Tree) : Option Nat :=
  match first.token.isScalar, room with
  | true, room => some room
  | false, 0 => none
  | false, room + 1 => some room

mutual

/-- The entry of a tree. -/
def entryOfTree? (room : Nat) : Tree → Option Entry
  | .node token [] => entry? token none
  | .node token (tree :: trees) => do
    let inside ← roomInside? room tree
    let first ← entryOfTree? inside tree
    let rest ← entriesOfTrees? inside tree.token.column trees
    entry? token (some (← combine (first :: rest)))

/-- The entries of trees that all stand at one column. -/
def entriesOfTrees? (room column : Nat) : List Tree → Option (List Entry)
  | [] => some []
  | tree :: trees =>
    if tree.token.column = column then do
      let first ← entryOfTree? room tree
      let rest ← entriesOfTrees? room column trees
      return first :: rest
    else
      none

end

/-- The value of a forest; that of no tokens is null. -/
def valueOfForest? : List Tree → Option Value
  | [] => some .null
  | tree :: trees => do
    let inside ← roomInside? maxDepth tree
    combine (← entriesOfTrees? inside tree.token.column (tree :: trees))

/-! ### Texts -/

/-- The character may stand in a text. -/
def isAllowed (c : Char) : Bool :=
  c == '\t' || c == '\n' || c == '\r' || c == '\x85' || 0x20 ≤ c.toNat && c.toNat ≤ 0x7E ||
    0xA0 ≤ c.toNat && c.toNat ≤ 0xFFFD || 0x10000 ≤ c.toNat

/-- The text with a byte order mark at its start counted as a blank. -/
def withoutOrderMark : List Char → List Char
  | '\ufeff' :: cs => ' ' :: cs
  | cs => cs

end Yaml

/-- The value that a YAML text denotes. -/
def Value.ofYaml? (text : String) : Option Value := do
  let cs := Yaml.withoutOrderMark text.toList
  if cs.all Yaml.isAllowed then
    Yaml.valueOfForest? (Yaml.forest (← Yaml.tokens? cs))
  else
    none

end Stencil
