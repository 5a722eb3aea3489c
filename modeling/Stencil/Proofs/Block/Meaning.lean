import Stencil.Proofs.Walk

/-!
The meaning of a tree.

A body means what its blocks mean, one after the other. A chain means what the
body of its selected arm means: of the first arm whose condition holds, where an
`@else` counts as true (`meaning_chain`). Arms that are not selected mean
nothing, but their declarations count: the scope of a block is the one behind all
nodes written before it (`Scope.behind`), in which every name has the value that
was declared for it last (`find?_behind`).

Walking over the nodes of a tree with the stack of open chains comes to the
meaning of the tree (`walk_blocks`, `render_eq_meaning`).
-/

namespace Stencil

/-! ### Scopes behind nodes -/

/-- The name and the value that a node declares. -/
def Node.declaration? (node : Node) : Option (String × Scalar) :=
  match node.kind with
  | .declare name value => some (name, value)
  | _ => none

/-- What nodes declare, in source order. -/
def declarations (nodes : List Node) : List (String × Scalar) :=
  nodes.filterMap Node.declaration?

namespace Scope

/-- The scope behind nodes: each declaration among them has taken effect, wherever
it stands. -/
def behind (scope : Scope) (nodes : List Node) : Scope :=
  (declarations nodes).foldl (fun scope declared => scope.declare declared.1 declared.2) scope

@[simp] theorem behind_nil (scope : Scope) : scope.behind [] = scope :=
  rfl

theorem behind_append (scope : Scope) (nodes nodes' : List Node) :
    scope.behind (nodes ++ nodes') = (scope.behind nodes).behind nodes' := by
  simp only [behind, declarations, List.filterMap_append, List.foldl_append]

theorem behind_cons (scope : Scope) (node : Node) (nodes : List Node) :
    scope.behind (node :: nodes) = (scope.behind [node]).behind nodes :=
  scope.behind_append [node] nodes

/-- Among nodes, the last declaration of a name counts. -/
theorem find?_behind (scope : Scope) (nodes : List Node) (name : String) :
    (scope.behind nodes).declared.find? name =
      ((declarations nodes).reverse.lookup name).or (scope.declared.find? name) := by
  unfold behind
  generalize declarations nodes = declared
  induction declared generalizing scope with
  | nil => rfl
  | cons first rest ih =>
    obtain ⟨key, value⟩ := first
    rw [List.foldl_cons, ih, List.reverse_cons, List.lookup_append, Option.or_assoc]
    congr 1
    by_cases same : name = key
    · subst same
      simp [declare]
    · have unequal : (name == key) = false := beq_false_of_ne same
      simp [declare, Bindings.find?_set_of_ne _ value same, List.lookup_cons, unequal]

end Scope

/-! ### Meaning -/

/-- An arm is true in a scope if its condition holds there. An `@else` is always
true. -/
def Arm.isTrue (scope : Scope) : Arm → Bool
  | .mk _ (some condition) _ => condition.holds scope
  | .mk _ none _ => true

mutual

/-- The output of a block in the scope in which it stands. -/
def Block.meaning (policy : MissingKeys) (scope : Scope) : Block → Except Fault String
  | .text line text => (Marker.fill policy scope line text).result
  | .declare _ _ _ => .ok ""
  | .chain line condition body others _ =>
    if (Arm.mk line (some condition) body).isTrue scope then
      Blocks.meaning policy scope body
    else
      Arms.meaning policy (scope.behind (Blocks.nodes body)) others

/-- The output of a body, given the scope in front of it. -/
def Blocks.meaning (policy : MissingKeys) (scope : Scope) : List Block → Except Fault String
  | [] => .ok ""
  | block :: rest => do
    let text ← block.meaning policy scope
    let following ← Blocks.meaning policy (scope.behind block.nodes) rest
    return text ++ following

/-- The output of the arms that are left of a chain in which no arm has been
selected yet, given the scope in front of them. -/
def Arms.meaning (policy : MissingKeys) (scope : Scope) : List Arm → Except Fault String
  | [] => .ok ""
  | .mk line condition? body :: rest =>
    if (Arm.mk line condition? body).isTrue scope then
      Blocks.meaning policy scope body
    else
      Arms.meaning policy (scope.behind (Blocks.nodes body)) rest

end

namespace Arms

/-- Arms, each with the scope in which it stands. -/
def placed (scope : Scope) : List Arm → List (Scope × Arm)
  | [] => []
  | .mk line condition? body :: rest =>
    (scope, .mk line condition? body) :: placed (scope.behind (Blocks.nodes body)) rest

/-- The first arm that is true where it stands, with the scope there. -/
def selected? (scope : Scope) (arms : List Arm) : Option (Scope × Arm) :=
  (placed scope arms).find? fun arm => arm.2.isTrue arm.1

/-- The output of the selected arm, if there is one. -/
def meaningOf (policy : MissingKeys) : Option (Scope × Arm) → Except Fault String
  | some (scope, .mk _ _ body) => Blocks.meaning policy scope body
  | none => .ok ""

theorem meaning_eq (policy : MissingKeys) (scope : Scope) (arms : List Arm) :
    meaning policy scope arms = meaningOf policy (selected? scope arms) := by
  induction arms generalizing scope with
  | nil => rfl
  | cons arm rest ih =>
    obtain ⟨line, condition?, body⟩ := arm
    rw [meaning, selected?, placed, List.find?_cons]
    cases (Arm.mk line condition? body).isTrue scope with
    | true => rfl
    | false => exact ih _

/-- No arm behind an `@else` is ever selected. -/
theorem selected?_append_otherwise (scope : Scope) (before : List Arm) (line : Nat)
    (body : List Block) (after : List Arm) :
    selected? scope (before ++ .mk line none body :: after) =
      selected? scope (before ++ [.mk line none body]) := by
  induction before generalizing scope with
  | nil => rfl
  | cons arm rest ih =>
    obtain ⟨armLine, condition?, armBody⟩ := arm
    simp only [List.cons_append, selected?, placed, List.find?_cons]
    cases (Arm.mk armLine condition? armBody).isTrue scope with
    | true => rfl
    | false => exact ih _

end Arms

/-- The `@if` of a chain is its first arm. -/
theorem Block.meaning_eq_arms (policy : MissingKeys) (scope : Scope) (line : Nat)
    (condition : Condition) (body : List Block) (others : List Arm) (endLine : Nat) :
    (Block.chain line condition body others endLine).meaning policy scope =
      Arms.meaning policy scope (.mk line (some condition) body :: others) := by
  rw [meaning, Arms.meaning]

/-- A chain means what its first true arm means. -/
theorem meaning_chain (policy : MissingKeys) (scope : Scope) (line : Nat) (condition : Condition)
    (body : List Block) (others : List Arm) (endLine : Nat) :
    (Block.chain line condition body others endLine).meaning policy scope =
      Arms.meaningOf policy
        (Arms.selected? scope (.mk line (some condition) body :: others)) := by
  rw [Block.meaning_eq_arms, Arms.meaning_eq]

theorem Blocks.meaning_singleton (policy : MissingKeys) (scope : Scope) (block : Block) :
    meaning policy scope [block] = block.meaning policy scope := by
  simp only [meaning]
  cases block.meaning policy scope with
  | error fault => rfl
  | ok text => exact congrArg Except.ok String.append_empty

/-- Bodies one behind the other mean one text behind the other. -/
theorem Blocks.meaning_append (policy : MissingKeys) (scope : Scope) (body body' : List Block) :
    meaning policy scope (body ++ body') = do
      let text ← meaning policy scope body
      let following ← meaning policy (scope.behind (nodes body)) body'
      return text ++ following := by
  induction body generalizing scope with
  | nil =>
    simp only [List.nil_append, meaning, nodes, Scope.behind_nil]
    cases meaning policy scope body' with
    | error fault => rfl
    | ok text => exact congrArg Except.ok String.empty_append.symm
  | cons block rest ih =>
    simp only [List.cons_append, meaning, nodes, ih, Scope.behind_append, bind_assoc, pure_bind,
      String.append_assoc]

/-! ### Walks -/

namespace Progress

/-- A text where the current arm of every open chain is shown, and nothing
elsewhere. -/
def shown (progress : Progress) (text : Except Fault String) : Except Fault String :=
  if progress.chains.isActive then text else .ok ""

/-- What a render has come to behind nodes that add a text to the output and leave
the open chains as they are. -/
def extend (progress : Progress) (nodes : List Node) (text : String) : Progress :=
  { progress with scope := progress.scope.behind nodes, output := progress.output ++ text }

theorem shown_of_active {progress : Progress} (active : progress.chains.isActive = true)
    (text : Except Fault String) : progress.shown text = text :=
  if_pos active

theorem shown_of_inactive {progress : Progress} (inactive : progress.chains.isActive = false)
    (text : Except Fault String) : progress.shown text = .ok "" := by
  rw [shown, inactive]
  rfl

@[simp] theorem shown_empty (progress : Progress) : progress.shown (.ok "") = .ok "" := by
  unfold shown
  split <;> rfl

/-- What a render has come to, inside one more chain. -/
def inChain (progress : Progress) (chain : Chain) : Progress :=
  { progress with chains := ⟨chain :: progress.chains.chains⟩ }

/-- Inside a chain, what is shown is what is shown around it and in the current arm. -/
theorem shown_inChain (progress : Progress) (chain : Chain) (text : Except Fault String) :
    (progress.inChain chain).shown text =
      if chain.active then progress.shown text else .ok "" := by
  obtain ⟨active, taken⟩ := chain
  cases active <;> rfl

theorem extend_extend (progress : Progress) (nodes nodes' : List Node) (text text' : String) :
    (progress.extend nodes text).extend nodes' text' =
      progress.extend (nodes ++ nodes') (text ++ text') := by
  simp only [extend, Scope.behind_append, String.append_assoc]

theorem extend_text (progress : Progress) (line : Nat) (text output : String) :
    progress.extend [⟨line, .text text⟩] output =
      { progress with output := progress.output ++ output } :=
  rfl

theorem extend_declare (progress : Progress) (line : Nat) (name : String) (value : Scalar)
    (output : String) :
    progress.extend [⟨line, .declare name value⟩] output =
      { progress with
        scope := progress.scope.declare name value, output := progress.output ++ output } :=
  rfl

/-- Arriving at an arm moves the innermost chain on. -/
theorem result_step_head (policy : MissingKeys) (progress : Progress) (chain : Chain) (line : Nat)
    (condition? : Option Condition) (body : List Block) :
    ((progress.inChain chain).step policy (Arm.head line condition?)).result =
      .ok (progress.inChain
        (chain.move ((Arm.mk line condition? body).isTrue progress.scope))) := by
  cases condition? with
  | none => exact result_step_otherwise policy _ line
  | some condition => exact result_step_elseIf policy _ line condition

end Progress

/-- The nodes of a chain declare what the nodes of its arms do. -/
theorem Scope.behind_chain (scope : Scope) (line : Nat) (condition : Condition)
    (body : List Block) (others : List Arm) (endLine : Nat) :
    scope.behind (Block.chain line condition body others endLine).nodes =
      scope.behind (Blocks.nodes body ++ Arms.nodes others) := by
  rw [Block.nodes, behind_cons, ← List.append_assoc, behind_append]
  rfl

theorem Scope.behind_arm (scope : Scope) (line : Nat) (condition? : Option Condition)
    (body : List Block) (rest : List Arm) :
    scope.behind (Arms.nodes (.mk line condition? body :: rest)) =
      scope.behind (Blocks.nodes body ++ Arms.nodes rest) := by
  rw [Arms.nodes, behind_cons]
  cases condition? <;> rfl

namespace Progress

variable {policy : MissingKeys} {progress : Progress} {text : Except Fault String}

/-- Nodes that are walked over one after the other add their texts one after the
other. -/
theorem walk_then {nodes nodes' : List Node} (following : Except Fault String)
    (first : (progress.walk policy nodes).result =
      (progress.shown text).map (progress.extend nodes))
    (second : ∀ output, ((progress.extend nodes output).walk policy nodes').result =
      (progress.shown following).map ((progress.extend nodes output).extend nodes')) :
    (progress.walk policy (nodes ++ nodes')).result =
      (progress.shown (text.bind fun output => following.map (output ++ ·))).map
        (progress.extend (nodes ++ nodes')) := by
  rw [walk_append, Logged.result_bind, first]
  cases active : progress.chains.isActive with
  | false =>
    simp only [shown_of_inactive active] at second ⊢
    refine (second "").trans ?_
    simp only [Except.map, extend_extend, String.append_empty]
  | true =>
    simp only [shown_of_active active] at second ⊢
    cases text with
    | error fault => rfl
    | ok output =>
      refine (second output).trans ?_
      cases following with
      | error fault => rfl
      | ok output' => simp only [Except.map, Except.bind, extend_extend]

/-- An arm of a chain, and what stands behind it in the chain. The text of the arm is
shown if it is the one to show. Otherwise the text behind it is, unless an earlier
arm has been taken. -/
theorem walk_arm {chain : Chain} {nodes rest inner : List Node} (following : Except Fault String)
    (consistent : chain.active = true → chain.taken = true)
    (arm : ((progress.inChain chain).walk policy nodes).result =
      ((progress.inChain chain).shown text).map ((progress.inChain chain).extend nodes))
    (behind : ∀ output, (((progress.extend nodes output).inChain chain).walk policy rest).result =
      (progress.shown (if chain.taken then .ok "" else following)).map
        ((progress.extend nodes output).extend inner)) :
    ((progress.inChain chain).walk policy (nodes ++ rest)).result =
      (progress.shown
        (if chain.active then text else if chain.taken then .ok "" else following)).map
        (progress.extend (nodes ++ inner)) := by
  rw [walk_append, Logged.result_bind, arm, shown_inChain]
  cases active : chain.active with
  | true =>
    simp only [consistent active, if_true, shown_empty] at behind ⊢
    cases progress.shown text with
    | error fault => rfl
    | ok output =>
      refine (behind output).trans ?_
      simp only [Except.map, extend_extend, String.append_empty]
  | false =>
    refine (behind "").trans ?_
    have joined : (progress.extend nodes "").extend inner = progress.extend (nodes ++ inner) := by
      funext output
      rw [extend_extend, String.empty_append]
    rw [joined]
    rfl

end Progress

mutual

/-- Walking over a block from any open chains and any scope comes to its meaning
where it is shown, and to nothing but its declarations elsewhere. -/
theorem walk_block (policy : MissingKeys) (progress : Progress) : (block : Block) →
    (progress.walk policy block.nodes).result =
      (progress.shown (block.meaning policy progress.scope)).map (progress.extend block.nodes)
  | .text line text => by
    rw [Block.nodes, Progress.walk_cons, Logged.result_bind, Progress.result_step_text,
      Block.meaning, Progress.shown]
    split
    · cases (Marker.fill policy progress.scope line text).result <;> rfl
    · simp only [Except.map, Except.bind, Progress.walk_nil, Logged.result_pure,
        Progress.extend_text, String.append_empty]
  | .declare line name value => by
    rw [Block.nodes, Progress.walk_cons, Logged.result_bind, Progress.result_step_declare,
      Block.meaning, Progress.shown_empty]
    simp only [Except.map, Except.bind, Progress.walk_nil, Logged.result_pure,
      Progress.extend_declare, String.append_empty]
  | .chain line condition body others endLine => by
    have written : progress.extend (Block.chain line condition body others endLine).nodes =
        progress.extend (Blocks.nodes body ++ Arms.nodes others) := by
      funext text
      simp only [Progress.extend, Scope.behind_chain]
    rw [written, Block.nodes, Progress.walk_cons, Logged.result_bind,
      Progress.result_step_ifThen]
    refine (Progress.walk_arm
      (Arms.meaning policy (progress.scope.behind (Blocks.nodes body)) others)
      (fun active => active) (walk_blocks policy _ body)
      fun output => walk_arms policy (progress.extend (Blocks.nodes body) output) _ endLine
        others).trans ?_
    rw [Block.meaning, Arm.isTrue]
    cases condition.holds progress.scope <;> rfl

theorem walk_blocks (policy : MissingKeys) (progress : Progress) : (body : List Block) →
    (progress.walk policy (Blocks.nodes body)).result =
      (progress.shown (Blocks.meaning policy progress.scope body)).map
        (progress.extend (Blocks.nodes body))
  | [] => by
    simp [Blocks.nodes, Blocks.meaning, Except.map, Progress.extend]
  | block :: rest => by
    rw [Blocks.nodes, Blocks.meaning]
    refine (Progress.walk_then (Blocks.meaning policy (progress.scope.behind block.nodes) rest)
      (walk_block policy progress block)
      fun output => walk_blocks policy (progress.extend block.nodes output) rest).trans ?_
    cases block.meaning policy progress.scope with
    | error fault => rfl
    | ok text =>
      cases Blocks.meaning policy (progress.scope.behind block.nodes) rest <;> rfl

/-- Walking over the arms that are left of a chain, and out of it. -/
theorem walk_arms (policy : MissingKeys) (progress : Progress) (chain : Chain) (endLine : Nat) :
    (arms : List Arm) →
    ((progress.inChain chain).walk policy (Arms.nodes arms ++ [⟨endLine, .endIf⟩])).result =
      (progress.shown
        (if chain.taken then .ok "" else Arms.meaning policy progress.scope arms)).map
        (progress.extend (Arms.nodes arms))
  | [] => by
    rw [Arms.meaning, ite_self, Progress.shown_empty]
    simp [Arms.nodes, Except.map, Progress.extend, Progress.walk_cons, Progress.inChain,
      Progress.result_step_endIf, OpenChains.close]
  | .mk line condition? body :: rest => by
    have written : progress.extend (Arms.nodes (.mk line condition? body :: rest)) =
        progress.extend (Blocks.nodes body ++ Arms.nodes rest) := by
      funext text
      simp only [Progress.extend, Scope.behind_arm]
    have consistent (holds : Bool) : (chain.move holds).active = true →
        (chain.move holds).taken = true := by
      unfold Chain.move
      split
      · intro impossible
        cases impossible
      · exact id
    rw [written, Arms.nodes, List.cons_append, Progress.walk_cons, Logged.result_bind,
      Progress.result_step_head policy progress chain line condition? body, List.append_assoc]
    refine (Progress.walk_arm (Arms.meaning policy (progress.scope.behind (Blocks.nodes body)) rest)
      (consistent _) (walk_blocks policy _ body)
      fun output => walk_arms policy (progress.extend (Blocks.nodes body) output) _ endLine
        rest).trans ?_
    rw [Arms.meaning, Chain.move]
    cases chain.taken <;> cases (Arm.mk line condition? body).isTrue progress.scope <;> rfl

end

/-- A step declares what its node declares, whether the node is shown or not. -/
theorem Progress.scope_step {policy : MissingKeys} {progress progress' : Progress} {node : Node}
    (stepped : (progress.step policy node).result = .ok progress') :
    progress'.scope = progress.scope.behind [node] := by
  obtain ⟨line, kind⟩ := node
  cases kind with
  | text text =>
    rw [result_step_text] at stepped
    split at stepped
    · obtain ⟨filled, _, rfl⟩ := exists_of_map_eq_ok stepped
      rfl
    · cases stepped
      rfl
  | declare name value =>
    cases stepped
    rfl
  | ifThen condition =>
    cases stepped
    rfl
  | elseIf condition =>
    rw [result_step_elseIf] at stepped
    cases stepped
    rfl
  | otherwise =>
    rw [result_step_otherwise] at stepped
    cases stepped
    rfl
  | endIf =>
    cases stepped
    rfl

/-- Wherever a walk stands, all declarations before that place have taken effect. -/
theorem Progress.scope_walk {policy : MissingKeys} {progress progress' : Progress}
    {nodes : List Node} (walked : (progress.walk policy nodes).result = .ok progress') :
    progress'.scope = progress.scope.behind nodes := by
  induction nodes generalizing progress with
  | nil =>
    cases walked
    rfl
  | cons node nodes ih =>
    rw [walk_cons, Logged.result_bind] at walked
    obtain ⟨between, stepped, later⟩ := exists_of_bind_eq_ok walked
    rw [ih later, scope_step stepped, ← Scope.behind_cons]

/-- From the start of a render, the walk over a body writes what the body means. -/
theorem output_walk_start (policy : MissingKeys) (context : Value) (body : List Block) :
    ((Progress.start context).walk policy (Blocks.nodes body)).result.map Progress.output =
      Blocks.meaning policy ⟨context, ∅⟩ body := by
  have scope : (Progress.start context).scope = ⟨context, ∅⟩ := rfl
  rw [walk_blocks, Progress.shown_of_active rfl, scope]
  cases Blocks.meaning policy ⟨context, ∅⟩ body with
  | error fault => rfl
  | ok text => exact congrArg Except.ok String.empty_append

/-- What a render comes to before its output is trimmed. -/
theorem result_renderUntrimmed (template : Template) (context : Value) (policy : MissingKeys) :
    (template.renderUntrimmed context policy).result =
      Blocks.meaning policy ⟨context, ∅⟩ template.blocks := by
  rw [template.result_renderUntrimmed_eq_walk, ← template.nodes_blocks, output_walk_start]

/-- **A render is the meaning of the tree.** The nodes of a template have one tree. The
walk over the nodes comes to the meaning of the tree in the scope without
declarations, and so does a render, trimmed and under the name of the template.
There a chain means what its first true arm means, so that no arm behind an
`@else` counts. Wherever the walk stands, its scope is the one behind all nodes
before that place, which knows the last declaration of every name among them. -/
theorem render_eq_meaning (template : Template) (context : Value) (options : Options) :
    (Blocks.nodes template.blocks = template.nodes ∧
        ∀ tree, Blocks.nodes tree = template.nodes → tree = template.blocks) ∧
      (template.renderUntrimmed context options.missingKeys).result =
        Blocks.meaning options.missingKeys ⟨context, ∅⟩ template.blocks ∧
      (template.render context options).result =
        ((Blocks.meaning options.missingKeys ⟨context, ∅⟩ template.blocks).mapError
          (⟨·, template.name⟩)).map
          (fun output => if options.trimOutput then Text.trimmed output else output) ∧
      (∀ scope line condition body others endLine,
        (Block.chain line condition body others endLine).meaning options.missingKeys scope =
          Arms.meaningOf options.missingKeys
            (Arms.selected? scope (.mk line (some condition) body :: others))) ∧
      (∀ scope before line body after,
        Arms.selected? scope (before ++ .mk line none body :: after) =
          Arms.selected? scope (before ++ [.mk line none body])) ∧
      (∀ before progress,
        ((Progress.start context).walk options.missingKeys before).result = .ok progress →
        progress.scope = Scope.behind ⟨context, ∅⟩ before) ∧
      (∀ before name, (Scope.behind ⟨context, ∅⟩ before).declared.find? name =
        (declarations before).reverse.lookup name) := by
  refine ⟨⟨template.nodes_blocks, fun tree written => ?_⟩, ?_, ?_, ?_, ?_, ?_, ?_⟩
  · exact Blocks.nodes_injective (written.trans template.nodes_blocks.symm)
  · exact result_renderUntrimmed template context options.missingKeys
  · rw [Template.result_render, result_renderUntrimmed]
  · exact meaning_chain options.missingKeys
  · exact Arms.selected?_append_otherwise
  · intro before progress walked
    exact Progress.scope_walk walked
  · intro before name
    rw [Scope.find?_behind, Bindings.find?_empty, Option.or_none]

end Stencil
