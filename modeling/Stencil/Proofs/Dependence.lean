import Stencil.Proofs.Block.Meaning

/-!
What a render depends on.

A node looks names up: the keys of the markers in a text, and the operands of a
condition, literals among them. The names that nodes ask the context for are
those that some node looks up while no node before it has declared them
(`mem_asked_iff`). A step looks nothing else up in the context, so a walk in
another context that answers alike for these names comes to the same and reports
the same (`Progress.walk_inContext`), and so does a render (`render_congr`).
-/

namespace Stencil

/-! ### Names that are looked up -/

/-- The operands of a condition. A literal is an operand as well: it is looked up
before it stands for itself. -/
def Condition.operands (condition : Condition) : List String :=
  match condition.form with
  | .truth operand | .negation operand => [operand]
  | .join left _ right => [left, right]

/-- The key of a segment that is one. -/
def Marker.Segment.key? : Marker.Segment → Option String
  | .literal _ => none
  | .key name => some name

/-- The keys of the markers in a text, in order. -/
def Marker.keys (text : String) : List String :=
  (segments text.toList).filterMap Segment.key?

/-- The names that a node looks up. -/
def Node.lookups (node : Node) : List String :=
  match node.kind with
  | .text text => Marker.keys text
  | .ifThen condition | .elseIf condition => condition.operands
  | .declare _ _ | .otherwise | .endIf => []

/-- The node declares a variable of the name. -/
def Node.declares (node : Node) (name : String) : Bool :=
  match node.kind with
  | .declare declared _ => declared == name
  | _ => false

/-- The names for which nodes ask the context. Behind its declaration a name is a
variable. -/
def asked : List Node → List String
  | [] => []
  | node :: rest => node.lookups ++ (asked rest).filter fun name => !node.declares name

/-- Nodes ask for a name if one of them looks it up and none before that one declares
it. -/
theorem mem_asked_iff {nodes : List Node} {name : String} :
    name ∈ asked nodes ↔ ∃ before node after, nodes = before ++ node :: after ∧
      name ∈ node.lookups ∧ ∀ earlier ∈ before, earlier.declares name = false := by
  induction nodes with
  | nil => simp [asked]
  | cons node rest ih =>
    rw [asked, List.mem_append, List.mem_filter, ih]
    constructor
    · rintro (looked | ⟨⟨before, asking, after, rfl, looked, undeclared⟩, kept⟩)
      · exact ⟨[], node, rest, rfl, looked, List.forall_mem_nil _⟩
      · have first : node.declares name = false := by simpa using kept
        refine ⟨node :: before, asking, after, rfl, looked, ?_⟩
        exact List.forall_mem_cons.mpr ⟨first, undeclared⟩
    · rintro ⟨before, asking, after, split, looked, undeclared⟩
      cases before with
      | nil =>
        obtain ⟨rfl, _⟩ := List.cons.inj split
        exact Or.inl looked
      | cons first before =>
        obtain ⟨rfl, rfl⟩ := List.cons.inj split
        obtain ⟨kept, later⟩ := List.forall_mem_cons.mp undeclared
        exact Or.inr ⟨⟨before, asking, after, rfl, looked, later⟩, by simp [kept]⟩

/-! ### Looking up in another context -/

namespace Scope

/-- The same declarations over another context. -/
def inContext (scope : Scope) (context : Value) : Scope :=
  { scope with context }

/-- For this name it makes no difference if the other context takes the place of the
one of the scope: the name is declared, or both contexts have the same for it. -/
def AgreesOn (scope : Scope) (context : Value) (name : String) : Prop :=
  scope.declared.find? name = none → scope.context.resolve? name = context.resolve? name

variable {scope : Scope} {context : Value}

theorem named?_inContext {name : String} (agrees : scope.AgreesOn context name) :
    (scope.inContext context).named? name = scope.named? name := by
  unfold named? inContext
  cases declared : scope.declared.find? name with
  | some scalar => rfl
  | none => simp only [agrees declared]

theorem display?_inContext {name : String} (agrees : scope.AgreesOn context name) :
    (scope.inContext context).display? name = scope.display? name := by
  unfold display? inContext
  cases declared : scope.declared.find? name with
  | some scalar => rfl
  | none => simp only [agrees declared]

theorem reference_inContext {name : String} (agrees : scope.AgreesOn context name) :
    (scope.inContext context).reference name = scope.reference name := by
  rw [reference, reference, named?_inContext agrees]

theorem comparand_inContext {name : String} (agrees : scope.AgreesOn context name) :
    (scope.inContext context).comparand name = scope.comparand name := by
  rw [comparand, comparand, named?_inContext agrees]

/-- A node that declares the name makes any context agree; any other node leaves
agreement as it is. -/
theorem AgreesOn.behind {node : Node} {name : String}
    (agrees : node.declares name = false → scope.AgreesOn context name) :
    (scope.behind [node]).AgreesOn context name := by
  obtain ⟨line, kind⟩ := node
  cases kind with
  | declare declared value =>
    intro undeclared
    have other : declared ≠ name := by
      rintro rfl
      simp [Scope.behind, declarations, Node.declaration?, declare] at undeclared
    apply agrees (beq_false_of_ne other)
    rw [← Bindings.find?_set_of_ne scope.declared value (Ne.symm other)]
    exact undeclared
  | text | ifThen | elseIf | otherwise | endIf => exact agrees rfl

end Scope

section InContext

variable {scope : Scope} {context : Value}

/-- Both operands of a condition are looked up before anything else is made of them. -/
theorem Condition.holds_inContext (condition : Condition)
    (agrees : ∀ name ∈ condition.operands, scope.AgreesOn context name) :
    condition.holds (scope.inContext context) = condition.holds scope := by
  obtain ⟨source, form⟩ := condition
  cases form with
  | truth operand | negation operand =>
    have operandAgrees := agrees operand (by simp [operands])
    simp only [holds, Scope.reference_inContext operandAgrees]
  | join left op right =>
    have leftAgrees := agrees left (by simp [operands])
    have rightAgrees := agrees right (by simp [operands])
    simp only [holds, rightOperand, Scope.reference_inContext leftAgrees,
      Scope.reference_inContext rightAgrees, Scope.comparand_inContext rightAgrees]

theorem Marker.fillSegments_inContext {policy : MissingKeys} {line : Nat} {segments : List Segment}
    (agrees : ∀ name ∈ segments.filterMap Segment.key?, scope.AgreesOn context name) :
    fillSegments policy (scope.inContext context) line segments =
      fillSegments policy scope line segments := by
  induction segments with
  | nil => rfl
  | cons segment rest ih =>
    cases segment with
    | literal c => simp only [fillSegments, Segment.fill, ih agrees]
    | key name =>
      obtain ⟨first, later⟩ := List.forall_mem_cons.mp agrees
      simp only [fillSegments, Segment.fill, Scope.display?_inContext first, ih later]

theorem Marker.fill_inContext {policy : MissingKeys} {line : Nat} {text : String}
    (agrees : ∀ name ∈ keys text, scope.AgreesOn context name) :
    fill policy (scope.inContext context) line text = fill policy scope line text := by
  rw [fill, fill, fillSegments_inContext agrees]

end InContext

/-! ### Walking in another context -/

/-- What follows on a computation matters only for the value that it comes to. -/
theorem Logged.bind_congr {ε α β : Type} {first : Logged ε α} {next next' : α → Logged ε β}
    (same : ∀ value, first.result = .ok value → next value = next' value) :
    first >>= next = first >>= next' := by
  cases result : first.result with
  | error error => simp only [bind, andThen, result]
  | ok value => rw [bind_of_ok result, bind_of_ok result, same value result]

namespace Progress

/-- The same progress over another context. -/
def inContext (progress : Progress) (context : Value) : Progress :=
  { progress with scope := progress.scope.inContext context }

variable {progress : Progress} {context : Value} (policy : MissingKeys)

theorem step_inContext {node : Node}
    (agrees : ∀ name ∈ node.lookups, progress.scope.AgreesOn context name) :
    (progress.inContext context).step policy node =
      (·.inContext context) <$> progress.step policy node := by
  obtain ⟨line, kind⟩ := node
  cases kind with
  | text text =>
    have filled : Marker.fill policy (progress.scope.inContext context) line text =
        Marker.fill policy progress.scope line text := Marker.fill_inContext agrees
    simp only [step, Progress.text, inContext, filled]
    split <;> simp
  | declare name value => simp [step, inContext, Scope.declare, Scope.inContext]
  | ifThen condition =>
    have holds := condition.holds_inContext agrees
    simp [step, ifThen, inContext, holds]
  | elseIf condition =>
    have holds := condition.holds_inContext agrees
    simp only [step, elseIf, OpenChains.elseIf_pure, pure_bind, inContext, holds, arrive]
    split <;> simp
  | otherwise =>
    simp only [step, otherwise, inContext, arrive]
    split <;> simp
  | endIf => simp [step, endIf, inContext]

theorem walk_inContext {nodes : List Node}
    (agrees : ∀ name ∈ asked nodes, progress.scope.AgreesOn context name) :
    (progress.inContext context).walk policy nodes =
      (·.inContext context) <$> progress.walk policy nodes := by
  induction nodes generalizing progress with
  | nil => simp
  | cons node rest ih =>
    have first : ∀ name ∈ node.lookups, progress.scope.AgreesOn context name :=
      fun name member => agrees name (List.mem_append_left _ member)
    rw [walk_cons, walk_cons, step_inContext policy first, bind_map_left, map_bind]
    refine Logged.bind_congr fun progress' stepped => ih fun name member => ?_
    rw [scope_step stepped]
    refine Scope.AgreesOn.behind fun undeclared => agrees name ?_
    exact List.mem_append_right _ (List.mem_filter.mpr ⟨member, by simp [undeclared]⟩)

end Progress

/-- **A render sees only the paths that the template names.** Take two contexts with the
same at every marker key and every operand of a condition that no node before
declares as a variable. Under the same options the renders in them come to the
same output or the same error, and they report the same events. -/
theorem render_congr (template : Template) {context context' : Value} (options : Options)
    (same : ∀ before node after, template.nodes = before ++ node :: after →
      ∀ name ∈ node.lookups, (∀ earlier ∈ before, earlier.declares name = false) →
        context.resolve? name = context'.resolve? name) :
    template.render context options = template.render context' options := by
  have agrees : ∀ name ∈ asked template.nodes,
      (Progress.start context).scope.AgreesOn context' name := by
    intro name member _
    obtain ⟨before, node, after, split, looked, undeclared⟩ := mem_asked_iff.mp member
    exact same before node after split name looked undeclared
  have walked := Progress.walk_inContext options.missingKeys agrees
  have start : (Progress.start context).inContext context' = Progress.start context' := rfl
  rw [start] at walked
  simp only [Template.render, Template.renderUntrimmed, walked, bind_map_left]
  rfl

/-- What the contexts have under a declared name is hidden, and other data is not asked
for. -/
theorem render_congr_hidden :
    ∃ template, Template.ofSource none
        "@var a x\n@if b == a\n\x7b\x7b a \x7d\x7d \x7b\x7b c.0 \x7d\x7d\n@endif" = .ok template ∧
      ∀ options,
        template.render
            (.object [("a", .null), ("b", .string "x"), ("c", .array [.bool true])]) options =
          template.render
            (.object [("b", .string "x"), ("c", .array [.bool true, .null]), ("d", .object [])])
            options := by
  let template : Template :=
    ⟨none, "@var a x\n@if b == a\n\x7b\x7b a \x7d\x7d \x7b\x7b c.0 \x7d\x7d\n@endif",
      [⟨1, .declare "a" (.text "x")⟩, ⟨2, .ifThen ⟨"b == a", .join "b" .equal "a"⟩⟩,
        ⟨3, .text "\x7b\x7b a \x7d\x7d \x7b\x7b c.0 \x7d\x7d\n"⟩, ⟨4, .endIf⟩], rfl, rfl⟩
  refine ⟨template, template.ofSource_source, fun options => ?_⟩
  apply render_congr
  intro before node after split name looked undeclared
  have asks : name ∈ asked template.nodes :=
    mem_asked_iff.mpr ⟨before, node, after, split, looked, undeclared⟩
  have names : asked template.nodes = ["b", "c.0"] := by decide
  rw [names] at asks
  simp only [List.mem_cons, List.not_mem_nil, or_false] at asks
  rcases asks with rfl | rfl <;> rfl

end Stencil
