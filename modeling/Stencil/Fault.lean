import Stencil.Keyword

/-!
What can be wrong with a template or its data.

A `Fault` is a cause, with the source line where there is one. An error of a
named template also tells its name (`TemplateError.locate`), and the first name
that is attached stays (`TemplateError.inTemplate`).
-/

namespace Stencil

/-- A cause of failure. -/
inductive Fault where
  /-- A token with `@` that is no directive, or a directive that is not formed as
  it should be. -/
  | malformedDirective (token : String) (line : Nat)
  /-- A directive that needs an open chain, where none is open. -/
  | unbalancedConditional (keyword : Keyword) (line : Nat)
  /-- A chain without an end. -/
  | unclosedConditional (line : Nat)
  | invalidCondition (condition reason : String) (line : Nat)
  /-- A key without a value, where that is not allowed. -/
  | missingKey (key : String) (line : Nat)
  | templateNotFound (name : String)
  /-- Data or options that cannot be read. -/
  | unreadableData (reason : String)
  deriving DecidableEq

namespace Fault

/-- The line at which the source is to blame. -/
def line? : Fault → Option Nat
  | .malformedDirective _ line | .unbalancedConditional _ line | .unclosedConditional line
  | .invalidCondition _ _ line | .missingKey _ line => some line
  | .templateNotFound _ | .unreadableData _ => none

/-- The wording of a fault. -/
def message : Fault → String
  | .malformedDirective token line => s!"invalid token `{token}` at line {line}"
  | .unbalancedConditional keyword line =>
    s!"`@{keyword.word}` without a matching `@if` at line {line}"
  | .unclosedConditional line => s!"`@if` opened at line {line} is never closed"
  | .invalidCondition condition reason line =>
    s!"invalid expression `{condition}` at line {line}: {reason}"
  | .missingKey key line => s!"missing value for `{key}` at line {line}"
  | .templateNotFound name => s!"template not found: {name}"
  | .unreadableData reason => s!"serialization error: {reason}"

end Fault

/-- A fault, and the name of the template in which it was found. -/
structure TemplateError where
  fault : Fault
  template : Option String
  deriving DecidableEq

namespace TemplateError

instance : Coe Fault TemplateError :=
  ⟨fun fault => ⟨fault, none⟩⟩

/-- Attaches a template name, unless one is attached. -/
def inTemplate (error : TemplateError) (name : String) : TemplateError :=
  { error with template := some (error.template.getD name) }

/-- An error of a template, under the name of the template if it has one. -/
def locate (name : Option String) (error : TemplateError) : TemplateError :=
  match name with
  | some name => error.inTemplate name
  | none => error

def line? (error : TemplateError) : Option Nat :=
  error.fault.line?

/-- The wording of an error. -/
def message (error : TemplateError) : String :=
  match error.template with
  | some name => s!"{error.fault.message} in template `{name}`"
  | none => error.fault.message

/-- The first name stays. -/
theorem inTemplate_inTemplate (error : TemplateError) (name other : String) :
    (error.inTemplate name).inTemplate other = error.inTemplate name :=
  rfl

/-- A fault has no name before it is located. -/
@[simp] theorem locate_fault (name : Option String) (fault : Fault) :
    locate name fault = ⟨fault, name⟩ := by
  cases name <;> rfl

end TemplateError

end Stencil
