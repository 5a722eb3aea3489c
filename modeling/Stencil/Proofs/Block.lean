import Stencil.Template

/-!
The nodes of a template as a tree.

A body is a list of blocks: texts, declarations, and chains whose arms have
bodies of their own. Writing a body out in source order gives back a list of
nodes (`Blocks.nodes`), and reading such a list from its end
(`Blocks.ofNodes?`) undoes this (`ofNodes?_eq_some_iff`), so nodes have at most
one tree.

The trees are what balance is about: nodes balance exactly when they have a tree
(`check_eq_ok_iff`). While the nodes of a tree are walked over, the open chains
of the balance are those that enclose the node at hand (`openedAt_nodes`).
-/

namespace Stencil

mutual

/-- A part of a body that stands for itself. A chain has the arm of its `@if`, the
arms after it in order, and the line of its `@endif`. -/
inductive Block where
  | text (line : Nat) (text : String)
  | declare (line : Nat) (name : String) (value : Scalar)
  | chain (line : Nat) (condition : Condition) (body : List Block) (others : List Arm)
      (endLine : Nat)

/-- An arm of a chain after the first one: an `@elseif` with its condition, or an
`@else`. -/
inductive Arm where
  | mk (line : Nat) (condition? : Option Condition) (body : List Block)

end

/-! ### Writing a tree out -/

/-- The node at which an arm begins. -/
def Arm.head (line : Nat) : Option Condition → Node
  | some condition => ⟨line, .elseIf condition⟩
  | none => ⟨line, .otherwise⟩

mutual

/-- The nodes of a block, in source order. -/
def Block.nodes : Block → List Node
  | .text line text => [⟨line, .text text⟩]
  | .declare line name value => [⟨line, .declare name value⟩]
  | .chain line condition body others endLine =>
    ⟨line, .ifThen condition⟩ ::
      (Blocks.nodes body ++ (Arms.nodes others ++ [⟨endLine, .endIf⟩]))

/-- The nodes of a body. -/
def Blocks.nodes : List Block → List Node
  | [] => []
  | block :: rest => block.nodes ++ Blocks.nodes rest

/-- The nodes of arms after the first one. -/
def Arms.nodes : List Arm → List Node
  | [] => []
  | .mk line condition? body :: rest =>
    Arm.head line condition? :: (Blocks.nodes body ++ Arms.nodes rest)

end

theorem Blocks.nodes_append (body body' : List Block) :
    nodes (body ++ body') = nodes body ++ nodes body' := by
  induction body with
  | nil => rfl
  | cons block rest ih => rw [List.cons_append, nodes, nodes, ih, List.append_assoc]

/-! ### Reading a tree

Nodes are read from the last one to the first. What has been read at a place is
the rest of the body there, and for every chain that is open there the part of
it that lies ahead. -/

/-- What lies ahead in an open chain: the arms after the current one, the line of
the `@endif`, and the rest of the body around the chain. -/
structure ChainAhead where
  arms : List Arm
  endLine : Nat
  rest : List Block

/-- What lies ahead at a place: the rest of the body there, and the open chains,
innermost first. -/
structure Ahead where
  body : List Block
  opened : List ChainAhead

namespace Ahead

/-- Nothing lies ahead. -/
def none : Ahead :=
  ⟨[], []⟩

/-- What lies ahead one node earlier. A node that opens a chain or an arm needs an
`@endif` further on. -/
def put (node : Node) (ahead : Ahead) : Option Ahead :=
  match node.kind, ahead.opened with
  | .text text, opened => some ⟨.text node.line text :: ahead.body, opened⟩
  | .declare name value, opened => some ⟨.declare node.line name value :: ahead.body, opened⟩
  | .endIf, opened => some ⟨[], ⟨[], node.line, ahead.body⟩ :: opened⟩
  | .elseIf condition, chain :: outer =>
    some ⟨[], { chain with arms := .mk node.line (some condition) ahead.body :: chain.arms } ::
      outer⟩
  | .otherwise, chain :: outer =>
    some ⟨[], { chain with arms := .mk node.line .none ahead.body :: chain.arms } :: outer⟩
  | .ifThen condition, chain :: outer =>
    some ⟨.chain node.line condition ahead.body chain.arms chain.endLine :: chain.rest, outer⟩
  | _, [] => .none

/-- The nodes that lie ahead. -/
def nodes (ahead : Ahead) : List Node :=
  Blocks.nodes ahead.body ++ ahead.opened.flatMap fun chain =>
    Arms.nodes chain.arms ++ ⟨chain.endLine, .endIf⟩ :: Blocks.nodes chain.rest

/-- Nodes in front of what lies ahead. -/
def putAll (nodes : List Node) (ahead : Ahead) : Option Ahead :=
  nodes.foldrM put ahead

theorem putAll_cons (node : Node) (nodes : List Node) (ahead : Ahead) :
    putAll (node :: nodes) ahead = (putAll nodes ahead).bind (put node) := by
  simp only [putAll, List.foldrM_cons]
  rfl

theorem putAll_append (nodes nodes' : List Node) (ahead : Ahead) :
    putAll (nodes ++ nodes') ahead = (putAll nodes' ahead).bind (putAll nodes) := by
  simp only [putAll, List.foldrM_append]
  rfl

/-- Nothing is lost or added by reading a node. -/
theorem nodes_put {node : Node} {ahead ahead' : Ahead} (h : put node ahead = some ahead') :
    ahead'.nodes = node :: ahead.nodes := by
  obtain ⟨line, kind⟩ := node
  obtain ⟨body, opened⟩ := ahead
  unfold put at h
  split at h <;> simp only [Option.some.injEq, reduceCtorEq] at h <;> subst h <;>
    simp_all [nodes, Blocks.nodes, Block.nodes, Arms.nodes, Arm.head]

theorem nodes_putAll {list : List Node} {ahead ahead' : Ahead}
    (h : putAll list ahead = some ahead') : ahead'.nodes = list ++ ahead.nodes := by
  induction list generalizing ahead' with
  | nil =>
    cases h
    rfl
  | cons node list ih =>
    rw [putAll_cons] at h
    obtain ⟨middle, read, last⟩ := Option.bind_eq_some_iff.mp h
    rw [nodes_put last, ih read, List.cons_append]

end Ahead

mutual

/-- Reading a block that was written out puts it in front of the body ahead. -/
theorem putAll_block (ahead : Ahead) : (block : Block) →
    Ahead.putAll block.nodes ahead = some ⟨block :: ahead.body, ahead.opened⟩
  | .text line text => rfl
  | .declare line name value => rfl
  | .chain line condition body others endLine => by
    have closed : Ahead.putAll [⟨endLine, .endIf⟩] ahead =
        some ⟨[], ⟨[], endLine, ahead.body⟩ :: ahead.opened⟩ := rfl
    rw [Block.nodes, Ahead.putAll_cons, Ahead.putAll_append, Ahead.putAll_append, closed]
    simp only [Option.bind_some, putAll_arms, putAll_blocks, List.append_nil, Ahead.put]

theorem putAll_blocks (ahead : Ahead) : (body : List Block) →
    Ahead.putAll (Blocks.nodes body) ahead = some ⟨body ++ ahead.body, ahead.opened⟩
  | [] => rfl
  | block :: rest => by
    rw [Blocks.nodes, Ahead.putAll_append, putAll_blocks ahead rest, Option.bind_some,
      putAll_block _ block, List.cons_append]

theorem putAll_arms (chain : ChainAhead) (outer : List ChainAhead) : (arms : List Arm) →
    Ahead.putAll (Arms.nodes arms) ⟨[], chain :: outer⟩ =
      some ⟨[], { chain with arms := arms ++ chain.arms } :: outer⟩
  | [] => rfl
  | .mk line condition? body :: rest => by
    rw [Arms.nodes, Ahead.putAll_cons, Ahead.putAll_append, putAll_arms chain outer rest,
      Option.bind_some, putAll_blocks _ body, Option.bind_some]
    cases condition? <;> simp [Arm.head, Ahead.put]

end

namespace Blocks

/-- The tree that nodes make, if they make one. -/
def ofNodes? (nodes : List Node) : Option (List Block) :=
  match Ahead.putAll nodes .none with
  | some ⟨body, []⟩ => some body
  | _ => none

/-- The tree of nodes is the one that is written out as these nodes. -/
theorem ofNodes?_eq_some_iff {nodes : List Node} {tree : List Block} :
    ofNodes? nodes = some tree ↔ Blocks.nodes tree = nodes := by
  constructor
  · intro h
    unfold ofNodes? at h
    split at h
    · next body read =>
      cases h
      have written := Ahead.nodes_putAll read
      simpa [Ahead.nodes, Ahead.none, Blocks.nodes] using written
    · cases h
  · rintro rfl
    simp [ofNodes?, putAll_blocks, Ahead.none]

/-- Nodes have at most one tree. -/
theorem nodes_injective {tree other : List Block} (h : Blocks.nodes tree = Blocks.nodes other) :
    tree = other := by
  have read := ofNodes?_eq_some_iff.mpr h
  rw [ofNodes?_eq_some_iff.mpr rfl] at read
  exact (Option.some.inj read).symm

end Blocks

/-! ### Trees and balance -/

namespace Balance

theorem openAfter_cons (opened : List Nat) (node : Node) (nodes : List Node) :
    openAfter opened (node :: nodes) = (step opened node).bind (openAfter · nodes) :=
  rfl

theorem openAfter_append (opened : List Nat) (nodes nodes' : List Node) :
    openAfter opened (nodes ++ nodes') = (openAfter opened nodes).bind (openAfter · nodes') := by
  rw [openAfter, List.foldlM_append]
  rfl

theorem check_eq_ok_iff_openAfter {nodes : List Node} :
    check nodes = .ok () ↔ openAfter [] nodes = .ok [] := by
  unfold check
  split
  · next h => simp [h]
  · next h => simp [h]
  · next h => simp [h]

/-- A node that the balance accepts can be read in front of what lies ahead, if as
many chains are open there as behind the node. -/
theorem exists_put_of_step {opened opened' : List Nat} {node : Node} {ahead : Ahead}
    (stepped : step opened node = .ok opened') (same : ahead.opened.length = opened'.length) :
    ∃ ahead', Ahead.put node ahead = some ahead' ∧ ahead'.opened.length = opened.length := by
  obtain ⟨line, kind⟩ := node
  obtain ⟨body, chains⟩ := ahead
  cases kind with
  | text text | declare name value =>
    cases stepped
    exact ⟨_, rfl, same⟩
  | ifThen condition =>
    cases stepped
    cases chains with
    | nil => cases same
    | cons chain outer => exact ⟨_, rfl, Nat.succ.inj same⟩
  | endIf =>
    cases opened with
    | nil => cases stepped
    | cons first outer =>
      cases stepped
      exact ⟨_, rfl, congrArg (· + 1) same⟩
  | elseIf condition | otherwise =>
    cases opened with
    | nil => cases stepped
    | cons first outer =>
      cases stepped
      cases chains with
      | nil => cases same
      | cons chain rest => exact ⟨_, rfl, same⟩

/-- Nodes that close all chains open before them can be read, and what then lies
ahead closes as many chains. -/
theorem exists_putAll_of_openAfter {opened : List Nat} {nodes : List Node}
    (closes : openAfter opened nodes = .ok []) :
    ∃ ahead, Ahead.putAll nodes .none = some ahead ∧ ahead.opened.length = opened.length := by
  induction nodes generalizing opened with
  | nil =>
    cases closes
    exact ⟨.none, rfl, rfl⟩
  | cons node nodes ih =>
    rw [openAfter_cons] at closes
    obtain ⟨opened', stepped, later⟩ := exists_of_bind_eq_ok closes
    obtain ⟨ahead, read, length⟩ := ih later
    rw [Ahead.putAll_cons, read, Option.bind_some]
    exact exists_put_of_step stepped length

/-- The chains that are open at each node, as far as the nodes are accepted. -/
def openedAt (opened : List Nat) : List Node → List (List Nat × Node)
  | [] => []
  | node :: rest =>
    (opened, node) ::
      match step opened node with
      | .ok opened => openedAt opened rest
      | .error _ => []

theorem openedAt_append {opened between : List Nat} {nodes : List Node}
    (reached : openAfter opened nodes = .ok between) (nodes' : List Node) :
    openedAt opened (nodes ++ nodes') = openedAt opened nodes ++ openedAt between nodes' := by
  induction nodes generalizing opened with
  | nil =>
    cases reached
    rfl
  | cons node nodes ih =>
    rw [openAfter_cons] at reached
    obtain ⟨opened', stepped, later⟩ := exists_of_bind_eq_ok reached
    simp only [List.cons_append, openedAt, stepped, ih later]

theorem map_snd_openedAt {opened closed : List Nat} {nodes : List Node}
    (reached : openAfter opened nodes = .ok closed) :
    (openedAt opened nodes).map Prod.snd = nodes := by
  induction nodes generalizing opened with
  | nil => rfl
  | cons node nodes ih =>
    rw [openAfter_cons] at reached
    obtain ⟨opened', stepped, later⟩ := exists_of_bind_eq_ok reached
    simp only [openedAt, stepped, List.map_cons, ih later]

/-- The chains open at a node are those that the nodes before it leave open. -/
theorem openAfter_of_openedAt {opened at' : List Nat} {nodes : List Node} {node : Node}
    {before after : List (List Nat × Node)}
    (split : openedAt opened nodes = before ++ (at', node) :: after) :
    openAfter opened (before.map Prod.snd) = .ok at' := by
  induction before generalizing opened nodes with
  | nil =>
    cases nodes with
    | nil => cases split
    | cons first rest =>
      cases split
      rfl
  | cons entry before ih =>
    cases nodes with
    | nil => cases split
    | cons first rest =>
      simp only [openedAt, List.cons_append, List.cons.injEq] at split
      obtain ⟨rfl, split⟩ := split
      rw [List.map_cons, openAfter_cons]
      cases stepped : step opened first with
      | error fault => simp [stepped] at split
      | ok opened' =>
        rw [stepped] at split
        exact ih split

end Balance

mutual

/-- The nodes of a block, each with the lines of the chains that enclose it,
innermost first. A chain encloses what stands behind its `@if`, through its
`@endif`. -/
def Block.enclosed (chains : List Nat) : Block → List (List Nat × Node)
  | .text line text => [(chains, ⟨line, .text text⟩)]
  | .declare line name value => [(chains, ⟨line, .declare name value⟩)]
  | .chain line condition body others endLine =>
    (chains, ⟨line, .ifThen condition⟩) ::
      (Blocks.enclosed (line :: chains) body ++
        (Arms.enclosed (line :: chains) others ++ [(line :: chains, ⟨endLine, .endIf⟩)]))

/-- The nodes of a body, each with the chains that enclose it. -/
def Blocks.enclosed (chains : List Nat) : List Block → List (List Nat × Node)
  | [] => []
  | block :: rest => block.enclosed chains ++ Blocks.enclosed chains rest

/-- The nodes of arms after the first one, each with the chains that enclose it,
that of the arms among them. -/
def Arms.enclosed (chains : List Nat) : List Arm → List (List Nat × Node)
  | [] => []
  | .mk line condition? body :: rest =>
    (chains, Arm.head line condition?) ::
      (Blocks.enclosed chains body ++ Arms.enclosed chains rest)

end

mutual

/-- A block leaves the same chains open as it finds. -/
theorem openAfter_block (opened : List Nat) : (block : Block) →
    Balance.openAfter opened block.nodes = .ok opened
  | .text line text => rfl
  | .declare line name value => rfl
  | .chain line condition body others endLine => by
    have entered : Balance.step opened ⟨line, .ifThen condition⟩ = .ok (line :: opened) := rfl
    rw [Block.nodes, Balance.openAfter_cons, entered]
    simp only [Except.bind, Balance.openAfter_append, openAfter_blocks, openAfter_arms]
    rfl

theorem openAfter_blocks (opened : List Nat) : (body : List Block) →
    Balance.openAfter opened (Blocks.nodes body) = .ok opened
  | [] => rfl
  | block :: rest => by
    rw [Blocks.nodes, Balance.openAfter_append, openAfter_block opened block]
    exact openAfter_blocks opened rest

theorem openAfter_arms (line : Nat) (outer : List Nat) : (arms : List Arm) →
    Balance.openAfter (line :: outer) (Arms.nodes arms) = .ok (line :: outer)
  | [] => rfl
  | .mk armLine condition? body :: rest => by
    have entered : Balance.step (line :: outer) (Arm.head armLine condition?) =
        .ok (line :: outer) := by
      cases condition? <;> rfl
    rw [Arms.nodes, Balance.openAfter_cons, entered]
    simp only [Except.bind, Balance.openAfter_append, openAfter_blocks, openAfter_arms]

end

mutual

/-- The chains open at the nodes of a block are those that enclose them. -/
theorem openedAt_block (chains : List Nat) : (block : Block) →
    Balance.openedAt chains block.nodes = block.enclosed chains
  | .text line text => rfl
  | .declare line name value => rfl
  | .chain line condition body others endLine => by
    have entered : Balance.step chains ⟨line, .ifThen condition⟩ = .ok (line :: chains) := rfl
    rw [Block.nodes, Balance.openedAt, entered, Block.enclosed]
    simp only [Balance.openedAt_append (openAfter_blocks _ body),
      Balance.openedAt_append (openAfter_arms line chains others),
      openedAt_blocks, openedAt_arms]
    rfl

theorem openedAt_blocks (chains : List Nat) : (body : List Block) →
    Balance.openedAt chains (Blocks.nodes body) = Blocks.enclosed chains body
  | [] => rfl
  | block :: rest => by
    rw [Blocks.nodes, Balance.openedAt_append (openAfter_block _ block),
      openedAt_block chains block, openedAt_blocks chains rest, Blocks.enclosed]

theorem openedAt_arms (line : Nat) (outer : List Nat) : (arms : List Arm) →
    Balance.openedAt (line :: outer) (Arms.nodes arms) = Arms.enclosed (line :: outer) arms
  | [] => rfl
  | .mk armLine condition? body :: rest => by
    have entered : Balance.step (line :: outer) (Arm.head armLine condition?) =
        .ok (line :: outer) := by
      cases condition? <;> rfl
    rw [Arms.nodes, Balance.openedAt, entered, Arms.enclosed]
    simp only [Balance.openedAt_append (openAfter_blocks _ body), openedAt_blocks, openedAt_arms]

end

/-- Nodes balance exactly when they have a tree. -/
theorem Balance.check_eq_ok_iff {nodes : List Node} :
    check nodes = .ok () ↔ ∃ tree, Blocks.nodes tree = nodes := by
  rw [check_eq_ok_iff_openAfter]
  constructor
  · intro closes
    obtain ⟨⟨body, chains⟩, read, length⟩ := exists_putAll_of_openAfter closes
    have none : chains = [] := List.length_eq_zero_iff.mp length
    subst none
    exact ⟨body, Blocks.ofNodes?_eq_some_iff.mp (by simp [Blocks.ofNodes?, read])⟩
  · rintro ⟨tree, rfl⟩
    exact openAfter_blocks [] tree

/-! ### The tree of a template -/

namespace Template

theorem exists_blocks (template : Template) :
    ∃ tree, Blocks.ofNodes? template.nodes = some tree := by
  obtain ⟨tree, written⟩ := Balance.check_eq_ok_iff.mp template.balanced
  exact ⟨tree, Blocks.ofNodes?_eq_some_iff.mpr written⟩

/-- The tree of a template. -/
def blocks (template : Template) : List Block :=
  (Blocks.ofNodes? template.nodes).get (Option.isSome_iff_exists.mpr template.exists_blocks)

theorem nodes_blocks (template : Template) : Blocks.nodes template.blocks = template.nodes :=
  Blocks.ofNodes?_eq_some_iff.mp (Option.some_get _).symm

end Template

end Stencil
