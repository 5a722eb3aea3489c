import Stencil.Log
import Stencil.Source.Scan
import Stencil.Template.Balance

/-!
Compiled templates.

A template is a source that has been scanned into nodes without a fault, and in
which conditional chains balance. Compiling fails with the fault of the scan if
there is one, whatever the balance of the nodes before it.
-/

namespace Stencil

/-- A compiled template. -/
structure Template where
  name : Option String
  source : String
  nodes : List Node
  scanned : (Source.scan source).result = .ok nodes
  balanced : Balance.check nodes = .ok ()

namespace Template

/-- The template that a source makes, or what is wrong with the source. -/
def ofSource (name : Option String) (source : String) : Except Fault Template :=
  match scanned : (Source.scan source).result with
  | .error fault => .error fault
  | .ok nodes =>
    match balanced : Balance.check nodes with
    | .error fault => .error fault
    | .ok () => .ok ⟨name, source, nodes, scanned, balanced⟩

/-- A template is what its source compiles to. -/
theorem ofSource_source (template : Template) :
    ofSource template.name template.source = .ok template := by
  obtain ⟨name, source, nodes, scanned, balanced⟩ := template
  unfold ofSource
  split
  · next fault failed =>
    rw [scanned] at failed
    cases failed
  · next nodes' scanned' =>
    have same : nodes = nodes' := Except.ok.inj (scanned.symm.trans scanned')
    subst same
    split
    · next fault failed =>
      rw [balanced] at failed
      cases failed
    · rfl

/-- A source is a template if it is scanned into nodes that balance. -/
theorem exists_ofSource {source : String} {nodes : List Node} (name : Option String)
    (scanned : (Source.scan source).result = .ok nodes) (balanced : Balance.check nodes = .ok ()) :
    ∃ template, ofSource name source = .ok template ∧ template.nodes = nodes := by
  have made := ofSource_source ⟨name, source, nodes, scanned, balanced⟩
  exact ⟨_, made, rfl⟩

/-- Compiles a source. Success is reported, and errors tell the name of the
template if it has one. -/
def compile (name : Option String) (source : String) : Logged TemplateError Template := do
  let template ← (Logged.ofExcept (ofSource name source)).mapError fun (fault : Fault) =>
    .locate name fault
  Logged.log (.compiled name template.nodes.length)
  return template

/-- What is wrong with a source is told under the name. -/
theorem compile_of_error {name : Option String} {source : String} {fault : Fault}
    (failed : ofSource name source = .error fault) :
    compile name source = .fail ⟨fault, name⟩ := by
  simp only [compile, failed, TemplateError.locate_fault]
  rfl

end Template

end Stencil
