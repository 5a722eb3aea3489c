import Stencil.Proofs.Block
import Stencil.Template.Render

/-!
Walking over the nodes of a template.

A walk can only stumble over a key without a value, and only where that is an
error (`onlyMissesKeys_walk`). The open chains of a walk and those of the balance
are as many at every node (`depth_walk`), whatever the conditions come to, so in
a template that compiled the structure is settled before it is rendered
(`structure_settled_by_compile`).
-/

namespace Stencil

/-! ### Moving to another arm -/

/-- The chain as it is in its next arm, given whether the condition of that arm
holds. -/
def Chain.move (chain : Chain) (holds : Bool) : Chain :=
  if chain.taken then ⟨false, true⟩ else ⟨holds, holds⟩

namespace OpenChains

/-- The open chains when the innermost one is in its next arm. -/
def move (opened : OpenChains) (holds : Bool) : OpenChains :=
  match opened.chains with
  | [] => opened
  | chain :: outer => ⟨chain.move holds :: outer⟩

theorem elseIf_pure {m : Type → Type} [Monad m] [LawfulMonad m] (opened : OpenChains)
    (holds : Bool) : opened.elseIf (pure holds : m Bool) = pure (opened.move holds) := by
  obtain ⟨chains⟩ := opened
  cases chains with
  | nil => rfl
  | cons chain outer =>
    simp only [elseIf, move, Chain.move]
    split <;> simp

/-- The condition of an `@else` counts as true. -/
theorem otherwise_eq_move (opened : OpenChains) : opened.otherwise = opened.move true := by
  obtain ⟨chains⟩ := opened
  cases chains with
  | nil => rfl
  | cons chain outer =>
    obtain ⟨active, taken⟩ := chain
    cases taken <;> rfl

theorem depth_move (opened : OpenChains) (holds : Bool) :
    (opened.move holds).depth = opened.depth := by
  obtain ⟨chains⟩ := opened
  cases chains <;> rfl

end OpenChains

/-! ### Results of steps

Text aside, a step always succeeds. -/

namespace Progress

variable (policy : MissingKeys) (progress : Progress) (line : Nat)

theorem result_step_text (text : String) :
    (progress.step policy ⟨line, .text text⟩).result =
      if progress.chains.isActive then
        (Marker.fill policy progress.scope line text).result.map fun filled =>
          { progress with output := progress.output ++ filled }
      else .ok progress := by
  simp only [step, Progress.text]
  split
  · rw [Logged.result_bind]
    cases (Marker.fill policy progress.scope line text).result <;> rfl
  · rfl

theorem result_step_declare (name : String) (value : Scalar) :
    (progress.step policy ⟨line, .declare name value⟩).result =
      .ok { progress with scope := progress.scope.declare name value } :=
  rfl

theorem result_step_ifThen (condition : Condition) :
    (progress.step policy ⟨line, .ifThen condition⟩).result =
      .ok { progress with chains := progress.chains.start (condition.holds progress.scope) } :=
  rfl

theorem result_arrive (chains : OpenChains) (event : Bool → Event) :
    (progress.arrive chains event).result = .ok { progress with chains } := by
  unfold arrive
  cases chains.innermost? <;> rfl

theorem result_step_elseIf (condition : Condition) :
    (progress.step policy ⟨line, .elseIf condition⟩).result =
      .ok { progress with chains := progress.chains.move (condition.holds progress.scope) } := by
  simp only [step, elseIf, OpenChains.elseIf_pure, pure_bind, result_arrive]

theorem result_step_otherwise :
    (progress.step policy ⟨line, .otherwise⟩).result =
      .ok { progress with chains := progress.chains.move true } := by
  simp only [step, otherwise, OpenChains.otherwise_eq_move, result_arrive]

theorem result_step_endIf :
    (progress.step policy ⟨line, .endIf⟩).result =
      .ok { progress with chains := progress.chains.close } :=
  rfl

end Progress

/-! ### Faults of a walk -/

/-- The only fault that a result may be is a key without a value, and that only
where the policy makes it one. -/
def OnlyMissesKeys {α : Type} (policy : MissingKeys) (result : Except Fault α) : Prop :=
  ∀ fault, result = .error fault → policy = .error ∧ ∃ key line, fault = .missingKey key line

section Faults

variable {α β : Type} {policy : MissingKeys}

theorem OnlyMissesKeys.ok (value : α) : OnlyMissesKeys policy (.ok value) := by
  intro fault failed
  cases failed

theorem OnlyMissesKeys.bind {result : Except Fault α} {next : α → Except Fault β}
    (first : OnlyMissesKeys policy result)
    (second : ∀ value, OnlyMissesKeys policy (next value)) :
    OnlyMissesKeys policy (result.bind next) := by
  intro fault failed
  cases result with
  | error fault' =>
    cases failed
    exact first _ rfl
  | ok value => exact second value fault failed

theorem OnlyMissesKeys.map {result : Except Fault α} (first : OnlyMissesKeys policy result)
    (f : α → β) : OnlyMissesKeys policy (result.map f) := by
  intro fault failed
  cases result with
  | error fault' =>
    cases failed
    exact first _ rfl
  | ok value => cases failed

/-- Where a missing key is no error, there is a result. -/
theorem OnlyMissesKeys.exists_ok {result : Except Fault α} (only : OnlyMissesKeys policy result)
    (lenient : policy ≠ .error) : ∃ value, result = .ok value := by
  cases result with
  | error fault => exact absurd (only fault rfl).1 lenient
  | ok value => exact ⟨value, rfl⟩

variable (policy)

theorem onlyMissesKeys_missing (line : Nat) (key : String) :
    OnlyMissesKeys policy (Marker.missing policy line key).result := by
  cases policy with
  | ignore | warn => exact .ok _
  | error =>
    intro fault failed
    cases failed
    exact ⟨rfl, key, line, rfl⟩

theorem onlyMissesKeys_fillSegments (scope : Scope) (line : Nat)
    (segments : List Marker.Segment) :
    OnlyMissesKeys policy (Marker.fillSegments policy scope line segments).result := by
  induction segments with
  | nil => exact .ok _
  | cons segment rest ih =>
    have first : OnlyMissesKeys policy (segment.fill policy scope line).result := by
      cases segment with
      | literal c => exact .ok _
      | key name =>
        simp only [Marker.Segment.fill]
        cases scope.display? name with
        | some text => exact .ok _
        | none => exact onlyMissesKeys_missing policy line name
    simp only [Marker.fillSegments, Logged.result_bind]
    exact first.bind fun text => ih.bind fun following => .ok _

theorem onlyMissesKeys_fill (scope : Scope) (line : Nat) (text : String) :
    OnlyMissesKeys policy (Marker.fill policy scope line text).result := by
  simp only [Marker.fill, Logged.result_bind]
  exact (onlyMissesKeys_fillSegments policy scope line _).bind fun filled => .ok _

theorem onlyMissesKeys_step (progress : Progress) (node : Node) :
    OnlyMissesKeys policy (progress.step policy node).result := by
  obtain ⟨line, kind⟩ := node
  cases kind with
  | text text =>
    rw [Progress.result_step_text]
    split
    · exact (onlyMissesKeys_fill policy _ line text).map _
    · exact .ok _
  | declare name value => exact .ok _
  | ifThen condition => exact .ok _
  | elseIf condition =>
    rw [Progress.result_step_elseIf]
    exact .ok _
  | otherwise =>
    rw [Progress.result_step_otherwise]
    exact .ok _
  | endIf => exact .ok _

theorem onlyMissesKeys_walk (progress : Progress) (nodes : List Node) :
    OnlyMissesKeys policy (progress.walk policy nodes).result := by
  induction nodes generalizing progress with
  | nil => exact .ok _
  | cons node nodes ih =>
    rw [Progress.walk_cons, Logged.result_bind]
    exact (onlyMissesKeys_step policy progress node).bind fun progress => ih progress

theorem onlyMissesKeys_renderUntrimmed (template : Template) (context : Value) :
    OnlyMissesKeys policy (template.renderUntrimmed context policy).result := by
  simp only [Template.renderUntrimmed, Logged.result_bind]
  exact (onlyMissesKeys_walk policy _ _).bind fun progress => .ok _

end Faults

/-! ### Depth -/

/-- The node belongs to a chain that is open before it. -/
def Node.needsChain (node : Node) : Prop :=
  match node.kind with
  | .elseIf _ | .otherwise | .endIf => True
  | .text _ | .declare _ _ | .ifThen _ => False

theorem Balance.opened_ne_nil_of_step {opened opened' : List Nat} {node : Node}
    (stepped : step opened node = .ok opened') (needs : node.needsChain) : opened ≠ [] := by
  rintro rfl
  obtain ⟨line, kind⟩ := node
  cases kind with
  | text | declare | ifThen => exact needs
  | elseIf | otherwise | endIf => cases stepped

/-- A step of a walk opens and closes chains as the balance does, whatever its
condition comes to. -/
theorem Progress.depth_step {policy : MissingKeys} {progress progress' : Progress} {node : Node}
    {opened opened' : List Nat} (same : progress.chains.depth = opened.length)
    (accepted : Balance.step opened node = .ok opened')
    (stepped : (progress.step policy node).result = .ok progress') :
    progress'.chains.depth = opened'.length := by
  obtain ⟨line, kind⟩ := node
  cases kind with
  | text text =>
    cases accepted
    rw [result_step_text] at stepped
    split at stepped
    · obtain ⟨filled, _, rfl⟩ := exists_of_map_eq_ok stepped
      exact same
    · cases stepped
      exact same
  | declare name value =>
    cases accepted
    cases stepped
    exact same
  | ifThen condition =>
    cases accepted
    cases stepped
    exact congrArg (· + 1) same
  | elseIf condition =>
    cases opened with
    | nil => cases accepted
    | cons first outer =>
      cases accepted
      rw [result_step_elseIf] at stepped
      cases stepped
      rw [OpenChains.depth_move, same]
  | otherwise =>
    cases opened with
    | nil => cases accepted
    | cons first outer =>
      cases accepted
      rw [result_step_otherwise] at stepped
      cases stepped
      rw [OpenChains.depth_move, same]
  | endIf =>
    cases opened with
    | nil => cases accepted
    | cons first outer =>
      cases accepted
      cases stepped
      have tail : progress.chains.close.depth = progress.chains.depth - 1 := List.length_tail
      rw [tail, same, List.length_cons, Nat.add_sub_cancel]

/-- At every place as many chains are open in a walk as in the balance. -/
theorem Progress.depth_walk {policy : MissingKeys} {progress progress' : Progress}
    {nodes : List Node} {opened opened' : List Nat}
    (same : progress.chains.depth = opened.length)
    (accepted : Balance.openAfter opened nodes = .ok opened')
    (walked : (progress.walk policy nodes).result = .ok progress') :
    progress'.chains.depth = opened'.length := by
  induction nodes generalizing progress opened with
  | nil =>
    cases accepted
    cases walked
    exact same
  | cons node nodes ih =>
    rw [Balance.openAfter_cons] at accepted
    rw [walk_cons, Logged.result_bind] at walked
    obtain ⟨between, stepped, walkedLater⟩ := exists_of_bind_eq_ok walked
    obtain ⟨middle, balanced, acceptedLater⟩ := exists_of_bind_eq_ok accepted
    exact ih (depth_step same balanced stepped) acceptedLater walkedLater

namespace Template

/-- A render reports what its untrimmed output reports. -/
theorem render_eq (template : Template) (context : Value) (options : Options) :
    template.render context options =
      ⟨(template.renderUntrimmed context options.missingKeys).events,
        ((template.renderUntrimmed context options.missingKeys).result.mapError
          (⟨·, template.name⟩)).map
            fun output => if options.trimOutput then Text.trimmed output else output⟩ := by
  simp only [render, TemplateError.locate_fault]
  obtain ⟨events, result⟩ := template.renderUntrimmed context options.missingKeys
  cases result with
  | error fault => rfl
  | ok output => exact congrArg (Logged.mk · _) (List.append_nil events)

theorem result_render (template : Template) (context : Value) (options : Options) :
    (template.render context options).result =
      ((template.renderUntrimmed context options.missingKeys).result.mapError
        (⟨·, template.name⟩)).map
        fun output => if options.trimOutput then Text.trimmed output else output := by
  rw [render_eq]

theorem result_renderUntrimmed_eq_walk (template : Template) (context : Value)
    (policy : MissingKeys) :
    (template.renderUntrimmed context policy).result =
      ((Progress.start context).walk policy template.nodes).result.map Progress.output := by
  simp only [renderUntrimmed, Logged.result_bind]
  cases ((Progress.start context).walk policy template.nodes).result <;> rfl

/-- Behind all nodes of a template no chain is open. -/
theorem depth_walk {policy : MissingKeys} (template : Template) {context : Value}
    {progress : Progress}
    (walked : ((Progress.start context).walk policy template.nodes).result = .ok progress) :
    progress.chains.depth = 0 := by
  have none : (Progress.start context).chains.depth = ([] : List Nat).length := rfl
  exact Progress.depth_walk none (Balance.check_eq_ok_iff_openAfter.mp template.balanced) walked

/-- A template fails at most for a key without a value, under its name. -/
theorem error_of_render {template : Template} {context : Value} {options : Options}
    {error : TemplateError} (failed : (template.render context options).result = .error error) :
    options.missingKeys = .error ∧ ∃ key line, error = ⟨.missingKey key line, template.name⟩ := by
  have only := onlyMissesKeys_renderUntrimmed options.missingKeys template context
  rw [result_render] at failed
  cases rendered : (template.renderUntrimmed context options.missingKeys).result with
  | ok output =>
    rw [rendered] at failed
    cases failed
  | error fault =>
    rw [rendered] at failed
    cases failed
    obtain ⟨strict, key, line, rfl⟩ := only fault rendered
    exact ⟨strict, key, line, rfl⟩

/-- The nodes of a template with the chains that enclose them are those with the
chains that the balance has open. -/
theorem openedAt_nodes (template : Template) :
    Balance.openedAt [] template.nodes = Blocks.enclosed [] template.blocks := by
  rw [← template.nodes_blocks, openedAt_blocks]

/-- At a node of a template the balance has those chains open that enclose it, and
there is one if the node needs one. -/
theorem openAfter_of_enclosed {template : Template} {before after : List (List Nat × Node)}
    {enclosing : List Nat} {node : Node}
    (split : Blocks.enclosed [] template.blocks = before ++ (enclosing, node) :: after) :
    Balance.openAfter [] (before.map Prod.snd) = .ok enclosing ∧
      (node.needsChain → enclosing ≠ []) := by
  have closes := Balance.check_eq_ok_iff_openAfter.mp template.balanced
  have nodes := Balance.map_snd_openedAt closes
  rw [openedAt_nodes, split, List.map_append, List.map_cons] at nodes
  have opened : Balance.openAfter [] (before.map Prod.snd) = .ok enclosing :=
    Balance.openAfter_of_openedAt (template.openedAt_nodes.trans split)
  refine ⟨opened, fun needs => ?_⟩
  rw [← nodes, Balance.openAfter_append] at closes
  obtain ⟨reached, before', later⟩ := exists_of_bind_eq_ok closes
  obtain rfl : enclosing = reached := Except.ok.inj (opened.symm.trans before')
  rw [Balance.openAfter_cons] at later
  obtain ⟨opened', stepped, _⟩ := exists_of_bind_eq_ok later
  exact Balance.opened_ne_nil_of_step stepped needs

end Template

/-- **Structure is settled by compiling.** Whenever a render reaches a node, as many
chains are open as enclose the node in the tree of the template, and the balance
has the same chains open; a node that needs an open chain finds one. At the end
none is open. A render fails at most for a key without a value, only where that
is an error, and then under the name of the template; otherwise it succeeds. -/
theorem structure_settled_by_compile (template : Template) (context : Value)
    (options : Options) :
    (Blocks.enclosed [] template.blocks).map Prod.snd = template.nodes ∧
      (∀ before enclosing node after progress,
        Blocks.enclosed [] template.blocks = before ++ (enclosing, node) :: after →
        ((Progress.start context).walk options.missingKeys (before.map Prod.snd)).result =
          .ok progress →
        progress.chains.depth = enclosing.length ∧
          Balance.openAfter [] (before.map Prod.snd) = .ok enclosing ∧
          (node.needsChain → progress.chains ≠ .none)) ∧
      (∀ progress,
        ((Progress.start context).walk options.missingKeys template.nodes).result =
          .ok progress →
        progress.chains.depth = 0) ∧
      (∀ error, (template.render context options).result = .error error →
        options.missingKeys = .error ∧
          ∃ key line, error = ⟨.missingKey key line, template.name⟩) ∧
      (options.missingKeys ≠ .error →
        ∃ output, (template.render context options).result = .ok output) := by
  refine ⟨?_, ?_, fun progress => template.depth_walk, fun error => Template.error_of_render, ?_⟩
  · rw [← template.openedAt_nodes]
    exact Balance.map_snd_openedAt (Balance.check_eq_ok_iff_openAfter.mp template.balanced)
  · intro before enclosing node after progress split walked
    obtain ⟨opened, nonempty⟩ := Template.openAfter_of_enclosed split
    have none : (Progress.start context).chains.depth = ([] : List Nat).length := rfl
    have depth := Progress.depth_walk none opened walked
    refine ⟨depth, opened, fun needs empty => nonempty needs ?_⟩
    rw [empty] at depth
    exact List.length_eq_zero_iff.mp depth.symm
  · intro lenient
    cases rendered : (template.render context options).result with
    | error error => exact absurd (Template.error_of_render rendered).1 lenient
    | ok output => exact ⟨output, rfl⟩

end Stencil
