import Stencil.Template.Render

/-!
Catalogs of named templates.

A catalog keeps templates under their names, together with the options of every
render. Adding a source that does not compile leaves the catalog as it was.
-/

namespace Stencil

/-- Named templates that share render options. -/
structure Catalog where
  options : Options
  templates : Bindings Template

namespace Catalog

/-- A catalog without templates. -/
def empty (options : Options) : Catalog :=
  ⟨options, ∅⟩

/-- Compiles a source and keeps it under a name, in place of any template that had
the name. -/
def add (catalog : Catalog) (name source : String) : Logged TemplateError Catalog := do
  let template ← Template.compile (some name) source
  return { catalog with templates := catalog.templates.set name template }

/-- A template has the name. -/
def has (catalog : Catalog) (name : String) : Bool :=
  catalog.templates.contains name

/-- The template of a name. -/
def get? (catalog : Catalog) (name : String) : Option Template :=
  catalog.templates.find? name

/-- Renders the template of a name. -/
def render (catalog : Catalog) (name : String) (context : Value) :
    Logged TemplateError String :=
  match catalog.get? name with
  | some template => template.render context catalog.options
  | none => .fail (Fault.templateNotFound name)

/-- Compiles and renders a source that has no name and is not kept. -/
def renderInline (catalog : Catalog) (source : String) (context : Value) :
    Logged TemplateError String := do
  let template ← Template.compile none source
  template.render context catalog.options

end Catalog

end Stencil
