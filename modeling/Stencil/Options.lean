import Stencil.Text.Quoted
import Stencil.Value.Compact

/-!
Render options, and how they are read from data.

Options are the fields of an object. A field that is absent has its default and
other fields are ignored; a field with a wrong value is refused with a reason
that names the value. The fields are read in the order of their keys, so the
first wrong one is told.
-/

namespace Stencil

/-- What to do about a key without a value. -/
inductive MissingKeys where
  /-- It stands for nothing. -/
  | ignore
  /-- It stands for nothing, and is reported. -/
  | warn
  /-- It is an error. -/
  | error
  deriving DecidableEq, Repr

namespace MissingKeys

def all : List MissingKeys :=
  [.ignore, .warn, .error]

/-- How a policy is written. -/
def name : MissingKeys → String
  | .ignore => "ignore"
  | .warn => "warn"
  | .error => "error"

/-- The policy that a name is written for. -/
def ofName? (name : String) : Option MissingKeys :=
  all.find? fun policy => policy.name == name

end MissingKeys

/-- Options of a render. -/
structure Options where
  missingKeys : MissingKeys := .warn
  /-- Blanks at the ends of the output are removed. -/
  trimOutput : Bool := true
  deriving DecidableEq, Repr, Inhabited

namespace Options

/-! ### Reading -/

/-- How a value is named in a reason. -/
def nameOf : Value → String
  | .null => "null"
  | .bool b => s!"boolean `{b}`"
  | .number (.int n) => s!"integer `{String.ofList (Digits.ofInt n)}`"
  | .number (.double d) => s!"floating point `{Layout.compact.write d}`"
  | .string text => s!"string {Text.quoted text}"
  | .array _ => "sequence"
  | .object _ => "map"

/-- The reason to refuse a value where another kind is expected. -/
def mismatch (value : Value) (expected : String) : String :=
  s!"invalid type: {nameOf value}, expected {expected}"

/-- The policy of a name. -/
def readPolicyName (name : String) : Except String MissingKeys :=
  match MissingKeys.ofName? name with
  | some policy => .ok policy
  | none => .error s!"unknown variant `{name}`, expected one of `ignore`, `warn`, `error`"

/-- A policy is written as its name, or as an object with the name as its only key
and null under it. -/
def readPolicy : Value → Except String MissingKeys
  | .string name => readPolicyName name
  | .object [(name, held)] => do
    let policy ← readPolicyName name
    match held with
    | .null => .ok policy
    | held => .error (mismatch held "unit")
  | .object _ => .error "invalid value: map, expected map with a single key"
  | value => .error (mismatch value "string or map")

/-- A switch is written as a truth value. -/
def readSwitch : Value → Except String Bool
  | .bool b => .ok b
  | value => .error (mismatch value "a boolean")

/-- Reads a field that may be absent. -/
def readField {α : Type} (fields : List (String × Value)) (key : String)
    (read : Value → Except String α) (absent : α) : Except String α :=
  match fields.lookup key with
  | some value => read value
  | none => .ok absent

/-- The options that the fields of an object state, or the reason to refuse them. -/
def ofFields (fields : List (String × Value)) : Except String Options := do
  let absent : Options := {}
  let missingKeys ← readField fields "missing_keys" readPolicy absent.missingKeys
  let trimOutput ← readField fields "trim_output" readSwitch absent.trimOutput
  return { missingKeys, trimOutput }

/-- The object that states options in full. -/
def toFields (options : Options) : List (String × Value) :=
  [("missing_keys", .string options.missingKeys.name), ("trim_output", .bool options.trimOutput)]

/-- What is stated in full is read back. -/
theorem ofFields_toFields (options : Options) : ofFields options.toFields = .ok options := by
  obtain ⟨policy, trim⟩ := options
  cases policy <;> rfl

end Options

end Stencil
