import Stencil.Proofs.Block

/-!
What is to blame for nodes that do not balance.

Counting `@if`s and `@endif`s tells where no chain is open: where as many have been
closed as opened. A directive that needs a chain and stands in such a place is
stray, and the first stray one is to blame (`exists_firstStray_of_openAfter`).
Without stray directives the chains that are open at the end are the `@if`s that no
`@endif` matches (`openAfter_eq_unclosed`), and the last of them is to blame.
-/

namespace Stencil

/-! ### Counting -/

namespace Node

/-- The keyword of a directive that needs an open chain. -/
def chainKeyword? (node : Node) : Option Keyword :=
  match node.kind with
  | .elseIf _ => some .elseIf
  | .otherwise => some .otherwise
  | .endIf => some .endIf
  | .text _ | .declare _ _ | .ifThen _ => none

/-- The node is an `@if`. -/
def opens (node : Node) : Bool :=
  match node.kind with
  | .ifThen _ => true
  | _ => false

/-- The node is an `@endif`. -/
def closes (node : Node) : Bool :=
  match node.kind with
  | .endIf => true
  | _ => false

end Node

namespace Balance

/-- The number of `@if`s. -/
def openings (nodes : List Node) : Nat :=
  nodes.countP Node.opens

/-- The number of `@endif`s. -/
def closings (nodes : List Node) : Nat :=
  nodes.countP Node.closes

/-- Behind these nodes the node is out of place: it needs an open chain, but as many
have been closed as opened. -/
def Stray (before : List Node) (node : Node) : Prop :=
  node.chainKeyword? ≠ none ∧ openings before = closings before

/-- No node is out of place. -/
def NoStray (nodes : List Node) : Prop :=
  ∀ before node after, nodes = before ++ node :: after → ¬ Stray before node

/-- The first node that is out of place. -/
def FirstStray (nodes : List Node) (node : Node) : Prop :=
  ∃ before after, nodes = before ++ node :: after ∧ Stray before node ∧ NoStray before

/-- Among the nodes behind an `@if` is the `@endif` that matches it: one with as many
`@if`s as `@endif`s in between. -/
def HasEnd (after : List Node) : Prop :=
  ∃ inner last later, after = inner ++ last :: later ∧ last.closes = true ∧
    openings inner = closings inner

/-- The last `@if` that no `@endif` matches. -/
def LastUnclosed (nodes : List Node) (node : Node) : Prop :=
  ∃ before after, nodes = before ++ node :: after ∧ node.opens = true ∧ ¬ HasEnd after ∧
    ∀ inner other later, after = inner ++ other :: later → other.opens = true → HasEnd later

/-! ### Stray directives -/

theorem step_nil_of_chainKeyword? {node : Node} {keyword : Keyword}
    (needs : node.chainKeyword? = some keyword) :
    step [] node = .error (.unbalancedConditional keyword node.line) := by
  obtain ⟨line, kind⟩ := node
  cases kind with
  | text | declare | ifThen => cases needs
  | elseIf | otherwise | endIf =>
    cases needs
    rfl

/-- A step is refused only where no chain is open. -/
theorem exists_chainKeyword?_of_step {opened : List Nat} {node : Node} {fault : Fault}
    (refused : step opened node = .error fault) :
    opened = [] ∧ ∃ keyword, node.chainKeyword? = some keyword ∧
      fault = .unbalancedConditional keyword node.line := by
  obtain ⟨line, kind⟩ := node
  cases kind with
  | text | declare | ifThen => cases refused
  | elseIf | otherwise | endIf =>
    cases opened with
    | nil =>
      cases refused
      exact ⟨rfl, _, rfl, rfl⟩
    | cons first outer => cases refused

theorem openings_cons (node : Node) (nodes : List Node) :
    openings (node :: nodes) = openings nodes + if node.opens then 1 else 0 :=
  List.countP_cons

theorem closings_cons (node : Node) (nodes : List Node) :
    closings (node :: nodes) = closings nodes + if node.closes then 1 else 0 :=
  List.countP_cons

theorem length_step {opened opened' : List Nat} {node : Node}
    (stepped : step opened node = .ok opened') :
    opened'.length + (if node.closes then 1 else 0) =
      opened.length + if node.opens then 1 else 0 := by
  obtain ⟨line, kind⟩ := node
  cases kind with
  | text | declare | ifThen =>
    cases stepped
    rfl
  | elseIf | otherwise | endIf =>
    cases opened with
    | nil => cases stepped
    | cons first outer =>
      cases stepped
      rfl

/-- As many chains are open as have been opened and not closed. -/
theorem length_openAfter {opened opened' : List Nat} {nodes : List Node}
    (accepted : openAfter opened nodes = .ok opened') :
    opened'.length + closings nodes = opened.length + openings nodes := by
  induction nodes generalizing opened with
  | nil =>
    cases accepted
    rfl
  | cons node nodes ih =>
    rw [openAfter_cons] at accepted
    obtain ⟨between, stepped, later⟩ := exists_of_bind_eq_ok accepted
    have first := length_step stepped
    have rest := ih later
    rw [openings_cons, closings_cons]
    omega

/-- Nodes that are accepted have no stray directive among them. -/
theorem noStray_of_openAfter {opened : List Nat} {nodes : List Node}
    (accepted : openAfter [] nodes = .ok opened) : NoStray nodes := by
  rintro before node after rfl ⟨needs, even⟩
  rw [openAfter_append] at accepted
  obtain ⟨between, earlier, accepted⟩ := exists_of_bind_eq_ok accepted
  have count := length_openAfter earlier
  rw [even, List.length_nil] at count
  have none : between = [] := List.length_eq_zero_iff.mp (by omega)
  subst none
  obtain ⟨keyword, some⟩ := Option.ne_none_iff_exists'.mp needs
  rw [openAfter_cons, step_nil_of_chainKeyword? some] at accepted
  cases accepted

/-- Nodes are refused at a directive that needs a chain and finds none open. -/
theorem exists_of_openAfter_eq_error {opened : List Nat} {nodes : List Node} {fault : Fault}
    (refused : openAfter opened nodes = .error fault) :
    ∃ before node after keyword, nodes = before ++ node :: after ∧
      openAfter opened before = .ok [] ∧ node.chainKeyword? = some keyword ∧
      fault = .unbalancedConditional keyword node.line := by
  induction nodes generalizing opened with
  | nil => cases refused
  | cons node nodes ih =>
    rw [openAfter_cons] at refused
    cases stepped : step opened node with
    | error fault' =>
      rw [stepped] at refused
      cases refused
      obtain ⟨rfl, keyword, needs, rfl⟩ := exists_chainKeyword?_of_step stepped
      exact ⟨[], node, nodes, keyword, rfl, rfl, needs, rfl⟩
    | ok opened' =>
      rw [stepped] at refused
      obtain ⟨before, stray, after, keyword, rfl, accepted, needs, rfl⟩ := ih refused
      refine ⟨node :: before, stray, after, keyword, rfl, ?_, needs, rfl⟩
      rw [openAfter_cons, stepped]
      exact accepted

/-- What is refused is the first stray directive. -/
theorem exists_firstStray_of_openAfter {nodes : List Node} {fault : Fault}
    (refused : openAfter [] nodes = .error fault) :
    ∃ node keyword, FirstStray nodes node ∧ node.chainKeyword? = some keyword ∧
      fault = .unbalancedConditional keyword node.line := by
  obtain ⟨before, node, after, keyword, split, accepted, needs, blamed⟩ :=
    exists_of_openAfter_eq_error refused
  have count := length_openAfter accepted
  rw [List.length_nil, Nat.zero_add, Nat.zero_add] at count
  have stray : Stray before node := ⟨by simp [needs], count.symm⟩
  exact ⟨node, keyword, ⟨before, after, split, stray, noStray_of_openAfter accepted⟩, needs, blamed⟩

/-! ### Chains without an end -/

/-- The number of `@endif`s that match no `@if` among the nodes. -/
def loose : List Node → Nat
  | [] => 0
  | node :: rest =>
    if node.opens then loose rest - 1 else if node.closes then loose rest + 1 else loose rest

/-- The `@if`s that no `@endif` matches, in order. -/
def unclosed : List Node → List Node
  | [] => []
  | node :: rest => if node.opens && loose rest == 0 then node :: unclosed rest else unclosed rest

/-- The chains that are open behind nodes are those that the nodes leave without an end,
and of those open before, the ones that the nodes do not close. -/
theorem openAfter_eq_unclosed {opened opened' : List Nat} {nodes : List Node}
    (accepted : openAfter opened nodes = .ok opened') :
    opened' = (unclosed nodes).reverse.map Node.line ++ opened.drop (loose nodes) := by
  induction nodes generalizing opened with
  | nil =>
    cases accepted
    rfl
  | cons node nodes ih =>
    rw [openAfter_cons] at accepted
    obtain ⟨between, stepped, later⟩ := exists_of_bind_eq_ok accepted
    rw [ih later]
    obtain ⟨line, kind⟩ := node
    cases kind with
    | text | declare =>
      cases stepped
      rfl
    | ifThen condition =>
      cases stepped
      -- Either an `@endif` further on closes this chain, or it stays open below the later ones.
      cases ends : loose nodes with
      | zero => simp [unclosed, loose, Node.opens, ends]
      | succ more => simp [unclosed, loose, Node.opens, ends]
    | elseIf | otherwise =>
      cases opened with
      | nil => cases stepped
      | cons first outer =>
        cases stepped
        rfl
    | endIf =>
      cases opened with
      | nil => cases stepped
      | cons first outer =>
        cases stepped
        rfl

/-- What holds of some place among nodes holds of the first one or of a later one. -/
theorem exists_place_cons_iff (holds : List Node → Node → Prop) {first : Node}
    {nodes : List Node} :
    (∃ inner last later, first :: nodes = inner ++ last :: later ∧ holds inner last) ↔
      holds [] first ∨
        ∃ inner last later, nodes = inner ++ last :: later ∧ holds (first :: inner) last := by
  constructor
  · rintro ⟨inner, last, later, split, holds⟩
    cases inner with
    | nil =>
      obtain ⟨rfl, rfl⟩ := List.cons.inj split
      exact Or.inl holds
    | cons node inner =>
      obtain ⟨rfl, rfl⟩ := List.cons.inj split
      exact Or.inr ⟨inner, last, later, rfl, holds⟩
  · rintro (here | ⟨inner, last, later, rfl, holds⟩)
    · exact ⟨[], first, nodes, rfl, here⟩
    · exact ⟨first :: inner, last, later, rfl, holds⟩

/-- More than a number of `@endif`s are loose exactly if one stands behind nodes that close as
many chains more than they open. -/
theorem lt_loose_iff {nodes : List Node} {more : Nat} :
    more < loose nodes ↔ ∃ inner last later, nodes = inner ++ last :: later ∧
      last.closes = true ∧ closings inner = openings inner + more := by
  induction nodes generalizing more with
  | nil => simp [loose]
  | cons node nodes ih =>
    rw [exists_place_cons_iff fun inner last =>
      last.closes = true ∧ closings inner = openings inner + more]
    obtain ⟨line, kind⟩ := node
    cases kind with
    | text | declare | elseIf | otherwise =>
      simp [openings_cons, closings_cons, loose, Node.opens, Node.closes, ih]
    | ifThen condition =>
      have inward : more < loose nodes - 1 ↔ more + 1 < loose nodes := by omega
      simp [openings_cons, closings_cons, loose, Node.opens, Node.closes, inward, ih,
        Nat.add_right_comm, Nat.add_assoc]
    | endIf =>
      cases more with
      | zero => simp [openings, closings, loose, Node.opens, Node.closes]
      | succ more =>
        have inward : more + 1 < loose nodes + 1 ↔ more < loose nodes := by omega
        have notHere : ¬ closings [] = openings [] + more + 1 := by simp [openings, closings]
        simp [openings_cons, closings_cons, loose, Node.opens, Node.closes, inward, ih, notHere,
          ← Nat.add_assoc]

/-- An `@if` has an end if the nodes behind it leave an `@endif` over. -/
theorem hasEnd_iff {nodes : List Node} : HasEnd nodes ↔ loose nodes ≠ 0 := by
  rw [← Nat.pos_iff_ne_zero, lt_loose_iff]
  simp only [HasEnd, Nat.add_zero, eq_comm]

theorem unclosed_cons_of_hasEnd {node : Node} {nodes : List Node}
    (ended : node.opens = true → HasEnd nodes) : unclosed (node :: nodes) = unclosed nodes := by
  rw [unclosed, if_neg]
  intro both
  obtain ⟨opens, none⟩ := Bool.and_eq_true_iff.mp both
  exact hasEnd_iff.mp (ended opens) (beq_iff_eq.mp none)

theorem unclosed_cons_of_not_hasEnd {node : Node} {nodes : List Node} (opens : node.opens = true)
    (endless : ¬ HasEnd nodes) : unclosed (node :: nodes) = node :: unclosed nodes := by
  have none : loose nodes = 0 := by
    rwa [hasEnd_iff, Classical.not_not] at endless
  simp [unclosed, opens, none]

/-- If no `@if` is left without an end, each one has an end. -/
theorem hasEnd_of_unclosed_eq_nil {nodes : List Node} (none : unclosed nodes = []) :
    ∀ inner other later, nodes = inner ++ other :: later → other.opens = true → HasEnd later := by
  rintro inner other later rfl opens
  induction inner with
  | nil =>
    by_cases ended : HasEnd later
    · exact ended
    · rw [List.nil_append, unclosed_cons_of_not_hasEnd opens ended] at none
      cases none
  | cons node inner ih =>
    rw [List.cons_append, unclosed] at none
    split at none
    · cases none
    · exact ih none

theorem lastUnclosed_of_getLast? {nodes : List Node} {node : Node}
    (last : (unclosed nodes).getLast? = some node) : LastUnclosed nodes node := by
  induction nodes with
  | nil => cases last
  | cons first rest ih =>
    -- Either the last one stands further on, or no other one does and it is the first node.
    by_cases later : (unclosed rest).getLast? = some node
    · obtain ⟨before, after, rfl, found⟩ := ih later
      exact ⟨first :: before, after, rfl, found⟩
    · by_cases ended : first.opens = true → HasEnd rest
      · rw [unclosed_cons_of_hasEnd ended] at last
        exact absurd last later
      · obtain ⟨opens, endless⟩ := Classical.not_imp.mp ended
        rw [unclosed_cons_of_not_hasEnd opens endless, List.getLast?_cons] at last
        have none : unclosed rest = [] := by
          rw [← List.getLast?_eq_none_iff]
          cases found : (unclosed rest).getLast? with
          | none => rfl
          | some other =>
            rw [found] at last
            exact absurd (found.trans last) later
        rw [none] at last
        cases last
        exact ⟨[], rest, rfl, opens, endless, hasEnd_of_unclosed_eq_nil none⟩

/-- If nodes are accepted but a chain stays open, its `@if` is the last one without an end. -/
theorem exists_lastUnclosed_of_openAfter {nodes : List Node} {line : Nat} {outer : List Nat}
    (accepted : openAfter [] nodes = .ok (line :: outer)) :
    ∃ node, LastUnclosed nodes node ∧ node.line = line := by
  have opened := openAfter_eq_unclosed accepted
  rw [List.drop_nil, List.append_nil] at opened
  have last : (unclosed nodes).getLast?.map Node.line = some line := by
    rw [← List.head?_reverse, ← List.head?_map, ← opened]
    rfl
  obtain ⟨node, found, rfl⟩ := Option.map_eq_some_iff.mp last
  exact ⟨node, lastUnclosed_of_getLast? found, rfl⟩

/-- **Balance accepts exactly the block grammar, and blames the right directive.** Nodes are
accepted if and only if they are the nodes of a tree, which is texts, declarations and
`@if block ((@elseif | @else) block)* @endif` in any order. Otherwise, if an `@elseif`,
`@else` or `@endif` stands behind as many `@if`s as `@endif`s, the first such directive
is to blame, by its keyword and its line; and if there is none, the last `@if` that no
`@endif` matches is to blame, by its line. -/
theorem check_blames (nodes : List Node) :
    (check nodes = .ok () ↔ ∃ tree, Blocks.nodes tree = nodes) ∧
      (check nodes = .ok () ∨
        (∃ node keyword, FirstStray nodes node ∧ node.chainKeyword? = some keyword ∧
          check nodes = .error (.unbalancedConditional keyword node.line)) ∨
        NoStray nodes ∧ ∃ node, LastUnclosed nodes node ∧
          check nodes = .error (.unclosedConditional node.line)) := by
  refine ⟨check_eq_ok_iff, ?_⟩
  unfold check
  cases opened : openAfter [] nodes with
  | error fault =>
    obtain ⟨node, keyword, first, needs, rfl⟩ := exists_firstStray_of_openAfter opened
    exact Or.inr (Or.inl ⟨node, keyword, first, needs, rfl⟩)
  | ok chains =>
    cases chains with
    | nil => exact Or.inl rfl
    | cons line outer =>
      obtain ⟨node, last, rfl⟩ := exists_lastUnclosed_of_openAfter opened
      exact Or.inr (Or.inr ⟨noStray_of_openAfter opened, node, last, rfl⟩)

/-- The chain inside has an end, so the one around it is to blame. -/
example (condition : Condition) :
    check [⟨1, .ifThen condition⟩, ⟨2, .ifThen condition⟩, ⟨3, .endIf⟩] =
      .error (.unclosedConditional 1) := rfl

end Balance

end Stencil
