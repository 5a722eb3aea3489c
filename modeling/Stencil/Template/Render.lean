import Stencil.Chain
import Stencil.Marker.Fill
import Stencil.Template

/-!
Rendering a template.

The nodes are walked once, from left to right. Text is filled and appended where
the current arm of every open chain is shown, and skipped elsewhere.
Declarations take effect wherever they stand, also in arms that are not shown.
Conditions are evaluated in the scope that has come about so far.
-/

namespace Stencil

/-- What a render has come to: the scope, the open chains, and the output. -/
structure Progress where
  scope : Scope
  chains : OpenChains
  output : String

namespace Progress

/-- Nothing is declared, opened or written. -/
def start (context : Value) : Progress :=
  ⟨⟨context, ∅⟩, .none, ""⟩

/-- Walks over text. -/
def text (progress : Progress) (policy : MissingKeys) (line : Nat) (text : String) :
    Logged Fault Progress :=
  if progress.chains.isActive then do
    let filled ← Marker.fill policy progress.scope line text
    return { progress with output := progress.output ++ filled }
  else
    return progress

/-- Walks over the start of a chain. -/
def ifThen (progress : Progress) (line : Nat) (condition : Condition) :
    Logged Fault Progress := do
  let holds := condition.holds progress.scope
  Logged.log (.ifOpened holds line progress.chains.depth)
  return { progress with chains := progress.chains.start holds }

/-- Arrives in another arm of the innermost chain, and reports whether it is shown. -/
def arrive (progress : Progress) (chains : OpenChains) (event : Bool → Event) :
    Logged Fault Progress := do
  if let some chain := chains.innermost? then
    Logged.log (event chain.active)
  return { progress with chains }

/-- Walks over an arm with a condition. -/
def elseIf (progress : Progress) (line : Nat) (condition : Condition) :
    Logged Fault Progress := do
  let chains ← progress.chains.elseIf (pure (condition.holds progress.scope))
  progress.arrive chains (.elseIfReached · line)

/-- Walks over the last arm of a chain. -/
def otherwise (progress : Progress) (line : Nat) : Logged Fault Progress :=
  progress.arrive progress.chains.otherwise (.elseReached · line)

/-- Walks over the end of a chain. -/
def endIf (progress : Progress) (line : Nat) : Logged Fault Progress := do
  let chains := progress.chains.close
  Logged.log (.chainClosed line chains.depth)
  return { progress with chains }

/-- Walks over a node. -/
def step (policy : MissingKeys) (progress : Progress) (node : Node) : Logged Fault Progress :=
  match node.kind with
  | .text text => progress.text policy node.line text
  | .declare name value => return { progress with scope := progress.scope.declare name value }
  | .ifThen condition => progress.ifThen node.line condition
  | .elseIf condition => progress.elseIf node.line condition
  | .otherwise => progress.otherwise node.line
  | .endIf => progress.endIf node.line

/-- Walks over nodes. -/
def walk (policy : MissingKeys) (progress : Progress) (nodes : List Node) :
    Logged Fault Progress :=
  nodes.foldlM (step policy) progress

@[simp] theorem walk_nil (policy : MissingKeys) (progress : Progress) :
    progress.walk policy [] = pure progress :=
  rfl

theorem walk_cons (policy : MissingKeys) (progress : Progress) (node : Node)
    (nodes : List Node) :
    progress.walk policy (node :: nodes) =
      progress.step policy node >>= fun progress => progress.walk policy nodes := by
  simp only [walk, List.foldlM_cons]

theorem walk_append (policy : MissingKeys) (progress : Progress) (nodes nodes' : List Node) :
    progress.walk policy (nodes ++ nodes') =
      progress.walk policy nodes >>= fun progress => progress.walk policy nodes' := by
  simp only [walk, List.foldlM_append]

end Progress

namespace Template

/-- The output of a template before it is trimmed. -/
def renderUntrimmed (template : Template) (context : Value) (policy : MissingKeys) :
    Logged Fault String := do
  let progress ← (Progress.start context).walk policy template.nodes
  Logged.log (.rendered template.name progress.scope.declared.size progress.output.utf8ByteSize)
  return progress.output

/-- The output of a template. -/
def render (template : Template) (context : Value) (options : Options) :
    Logged TemplateError String := do
  let output ← (template.renderUntrimmed context options.missingKeys).mapError
    fun (fault : Fault) => .locate template.name fault
  return if options.trimOutput then Text.trimmed output else output

end Template

end Stencil
