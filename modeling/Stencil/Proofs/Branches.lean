import Stencil.Proofs.Block.Meaning
import Stencil.Proofs.Lines
import Stencil.Proofs.Scan

/-!
Chains of whole templates.

A source that compiles can be put into an arm of a chain: between an `@if` or an
`@elseif` line and the next directive it is read as it is alone, up to a newline
behind its last text (`Body.exists_tree`). So a chain that is written from
conditions and such sources compiles, and its trimmed output is that of the first
source whose condition holds (`render_branches`).
-/

namespace Stencil

/-! ### Arms -/

/-- A template that can stand in an arm: it declares nothing, and its source ends
neither with an open brace nor with a backslash that protects what comes next. -/
structure Body where
  template : Template
  declaresNothing : declarations template.nodes = []
  settled : (Source.Cursor.between.behind template.source.toList).Settled

/-- A condition that can stand on a line, and the body to show where it holds. -/
structure Branch where
  text : String
  condition : Condition
  oneLine : '\n' ∉ text.toList
  parsed : ∃ line, Condition.parse text line = .ok condition
  body : Body

/-- The lines of an arm: its directive and its body. -/
def Body.lines (directive : String) (body : Body) : String :=
  directive ++ "\n" ++ body.template.source ++ "\n"

namespace Branches

/-- The source of the branches after the first one, and of the body without a
condition if there is one, through the end of the chain. -/
def sourceAfter (fallback? : Option Body) : List Branch → String
  | branch :: rest => branch.body.lines ("@elseif " ++ branch.text) ++ sourceAfter fallback? rest
  | [] =>
    match fallback? with
    | some fallback => fallback.lines "@else" ++ "@endif"
    | none => "@endif"

/-- The source of a chain. -/
def source (first : Branch) (others : List Branch) (fallback? : Option Body) : String :=
  first.body.lines ("@if " ++ first.text) ++ sourceAfter fallback? others

/-- The body of the first branch whose condition holds, else the one without a
condition. -/
def chosen? (scope : Scope) (branches : List Branch) (fallback? : Option Body) : Option Body :=
  match branches.find? fun branch => branch.condition.holds scope with
  | some branch => some branch.body
  | none => fallback?

end Branches

/-! ### Bodies -/

/-- The template without its last node, if that is a text. -/
theorem Template.exists_blocks_before_text {template : Template} {nodes : List Node} {line : Nat}
    {text : String} (split : template.nodes = nodes ++ [⟨line, .text text⟩]) :
    ∃ tree, Blocks.nodes tree = nodes ∧ template.blocks = tree ++ [.text line text] := by
  have closes := Balance.check_eq_ok_iff_openAfter.mp template.balanced
  rw [split, Balance.openAfter_append] at closes
  obtain ⟨opened, before, last⟩ := exists_of_bind_eq_ok closes
  obtain rfl : opened = [] := Except.ok.inj last
  obtain ⟨tree, written⟩ :=
    Balance.check_eq_ok_iff.mp (Balance.check_eq_ok_iff_openAfter.mpr before)
  refine ⟨tree, written, Blocks.nodes_injective ?_⟩
  rw [template.nodes_blocks, split, Blocks.nodes_append, written]
  rfl

/-- In an arm, a body is read as a tree that means the same, blanks at the end apart. -/
theorem Body.exists_tree (body : Body) :
    ∃ tree, declarations (Blocks.nodes tree) = [] ∧
      Source.Reads (Source.pieces (body.template.source.toList ++ ['\n']))
        ((Blocks.nodes tree).map Node.kind) ∧
      ∀ policy scope, (Blocks.meaning policy scope tree).map Text.trimmed =
        (Blocks.meaning policy scope body.template.blocks).map Text.trimmed := by
  obtain ⟨template, declaresNothing, settled⟩ := body
  have reads : Source.Reads (Source.pieces template.source.toList)
      (template.nodes.map Node.kind) := .of_result template.scanned
  rcases reads.append_newline settled with same | ⟨before, text, kinds, closed, longer⟩
  · rw [← template.nodes_blocks] at same declaresNothing
    exact ⟨template.blocks, declaresNothing, same, fun _ _ => rfl⟩
  · obtain ⟨nodes, last, split, rfl, kindLast⟩ := List.map_eq_append_iff.mp kinds
    obtain ⟨⟨line, kind⟩, rfl, rfl⟩ := List.map_eq_singleton_iff.mp kindLast
    obtain ⟨tree, rfl, blocks⟩ := Template.exists_blocks_before_text split
    refine ⟨tree ++ [.text line (text ++ "\n")], ?_, ?_, fun policy scope => ?_⟩
    · rw [split] at declaresNothing
      rw [Blocks.nodes_append]
      simpa [declarations, Blocks.nodes, Block.nodes, Node.declaration?] using declaresNothing
    · rw [Blocks.nodes_append, List.map_append]
      exact longer
    · have filled := Marker.result_fill_append_newline closed policy
        (scope.behind (Blocks.nodes tree)) line
      rw [blocks, Blocks.meaning_append, Blocks.meaning_append]
      simp only [Blocks.meaning_singleton, Block.meaning, filled]
      cases Blocks.meaning policy scope tree with
      | error fault => rfl
      | ok written =>
        cases (Marker.fill policy (scope.behind (Blocks.nodes tree)) line text).result with
        | error fault => rfl
        | ok following =>
          refine congrArg Except.ok ?_
          rw [← String.append_assoc, Text.trimmed_append_newline]

/-! ### Chains -/

theorem Body.toList_lines (body : Body) (directive : String) :
    (body.lines directive).toList =
      directive.toList ++ ['\n'] ++ (body.template.source.toList ++ ['\n']) := by
  have newline : "\n".toList = ['\n'] := rfl
  simp only [lines, String.toList_append, newline, List.append_assoc]

/-- The lines of an arm and the directive behind them are read one after the other. -/
theorem Body.reads_lines (body : Body) {directive : String} {keyword : Keyword}
    {payload later : List Char} {kind : Node.Kind} {inner outer : List Node.Kind}
    (start : directive.toList = '@' :: (keyword.word.toList ++ payload))
    (oneLine : '\n' ∉ payload) (ends : ∀ c ∈ payload.head?, Directive.isWordChar c = false)
    (read : ∀ line, Directive.readPayload keyword payload line = .ok kind)
    (reads : Source.Reads (Source.pieces (body.template.source.toList ++ ['\n'])) inner)
    (behind : Source.Reads (Source.pieces later) outer) (begins : later.head? = some '@') :
    Source.Reads (Source.pieces ((body.lines directive).toList ++ later))
      (kind :: (inner ++ outer)) := by
  rw [body.toList_lines, start, List.append_assoc, List.cons_append]
  refine .directive_line oneLine ends read ?_
  rw [Source.pieces_append_directive body.settled begins]
  exact reads.append behind

/-- The condition of a branch is read behind an `@if` or an `@elseif`. -/
theorem Branch.parse_eq (branch : Branch) (line : Nat) :
    Condition.parse (String.ofList (' ' :: branch.text.toList)) line = .ok branch.condition := by
  obtain ⟨line', parsed⟩ := branch.parsed
  exact Condition.parse_space_cons parsed line

/-- The lines of a branch, with either of the directives that take a condition. -/
theorem Branch.reads_lines (branch : Branch) {directive : String} {keyword : Keyword}
    {make : Condition → Node.Kind} {later : List Char} {inner outer : List Node.Kind}
    (start : directive.toList = '@' :: (keyword.word.toList ++ [' ']))
    (takes : ∀ payload line, Directive.readPayload keyword payload line =
      (Condition.parse (String.ofList payload) line).map make)
    (reads : Source.Reads (Source.pieces (branch.body.template.source.toList ++ ['\n'])) inner)
    (behind : Source.Reads (Source.pieces later) outer) (begins : later.head? = some '@') :
    Source.Reads (Source.pieces ((branch.body.lines (directive ++ branch.text)).toList ++ later))
      (make branch.condition :: (inner ++ outer)) := by
  have whole : (directive ++ branch.text).toList =
      '@' :: (keyword.word.toList ++ ' ' :: branch.text.toList) := by
    simp [String.toList_append, start]
  have oneLine := Directive.newline_not_mem_space_cons branch.oneLine
  have ends := Directive.isWordChar_head?_space branch.text.toList
  refine branch.body.reads_lines whole oneLine ends (fun line => ?_) reads behind begins
  rw [takes, branch.parse_eq]
  rfl

theorem Scope.behind_of_declarations {nodes : List Node} (none : declarations nodes = [])
    (scope : Scope) : scope.behind nodes = scope := by
  rw [behind, none, List.foldl_nil]

namespace Branches

theorem head?_toList_lines {body : Body} {directive : String}
    (start : directive.toList.head? = some '@') (later : List Char) :
    ((body.lines directive).toList ++ later).head? = some '@' := by
  simp [body.toList_lines, List.head?_append, start]

/-- Behind every body comes a directive. -/
theorem head?_sourceAfter (fallback? : Option Body) (others : List Branch) :
    (sourceAfter fallback? others).toList.head? = some '@' := by
  cases others with
  | nil =>
    cases fallback? with
    | none => rfl
    | some fallback =>
      rw [sourceAfter, String.toList_append]
      exact head?_toList_lines rfl _
  | cons branch rest =>
    rw [sourceAfter, String.toList_append]
    apply head?_toList_lines
    rw [String.toList_append]
    rfl

/-- The trimmed meaning of the chosen body, if there is one. -/
def outcome (policy : MissingKeys) (scope : Scope) : Option Body → Except Fault String
  | some body => (Blocks.meaning policy scope body.template.blocks).map Text.trimmed
  | none => .ok ""

/-- An arm in front of other arms is chosen if its condition holds. -/
theorem meaning_arm {branch : Branch} {rest : List Branch} {fallback? : Option Body}
    {tree : List Block} {arms : List Arm} {policy : MissingKeys} {scope : Scope}
    (declaresNothing : declarations (Blocks.nodes tree) = [])
    (first : (Blocks.meaning policy scope tree).map Text.trimmed =
      outcome policy scope (some branch.body))
    (others : (Arms.meaning policy scope arms).map Text.trimmed =
      outcome policy scope (chosen? scope rest fallback?)) (line : Nat) :
    (Arms.meaning policy scope (.mk line (some branch.condition) tree :: arms)).map Text.trimmed =
      outcome policy scope (chosen? scope (branch :: rest) fallback?) := by
  simp only [Arms.meaning, Arm.isTrue, chosen?, List.find?_cons,
    Scope.behind_of_declarations declaresNothing]
  cases branch.condition.holds scope with
  | true => exact first
  | false => exact others

/-- The source behind the first branch is read as arms and the end of the chain, and
the arms mean what the chosen body means. -/
theorem exists_arms (fallback? : Option Body) (others : List Branch) :
    ∃ arms,
      Source.Reads (Source.pieces (sourceAfter fallback? others).toList)
        ((Arms.nodes arms).map Node.kind ++ [.endIf]) ∧
      ∀ policy scope, (Arms.meaning policy scope arms).map Text.trimmed =
        outcome policy scope (chosen? scope others fallback?) := by
  have closing : Source.Reads (Source.pieces "@endif".toList) [.endIf] := by
    have cut : Source.pieces "@endif".toList = [⟨.directive, "@endif".toList⟩] := by decide
    rw [cut]
    exact .directive (fun line => rfl) .nil
  induction others with
  | nil =>
    cases fallback? with
    | none => exact ⟨[], closing, fun _ _ => rfl⟩
    | some fallback =>
      obtain ⟨tree, declaresNothing, reads, meaning⟩ := fallback.exists_tree
      have start : "@else".toList = '@' :: (Keyword.otherwise.word.toList ++ []) := rfl
      refine ⟨[.mk 0 none tree], ?_, meaning⟩
      rw [sourceAfter, String.toList_append]
      simpa [Arms.nodes, Arm.head] using
        fallback.reads_lines start List.not_mem_nil nofun (fun line => rfl) reads closing rfl
  | cons branch rest ih =>
    obtain ⟨arms, behind, meaningRest⟩ := ih
    obtain ⟨tree, declaresNothing, reads, meaning⟩ := branch.body.exists_tree
    have start : "@elseif ".toList = '@' :: (Keyword.elseIf.word.toList ++ [' ']) := rfl
    refine ⟨.mk 0 (some branch.condition) tree :: arms, ?_, fun policy scope => ?_⟩
    · rw [sourceAfter, String.toList_append]
      simpa [Arms.nodes, Arm.head] using
        branch.reads_lines start (fun _ _ => rfl) reads behind (head?_sourceAfter fallback? rest)
    · exact meaning_arm declaresNothing (meaning policy scope) (meaningRest policy scope) 0

/-- The whole source is read as a chain, which means what the chosen body means. -/
theorem exists_chain (first : Branch) (others : List Branch) (fallback? : Option Body) :
    ∃ chain : Block,
      Source.Reads (Source.pieces (source first others fallback?).toList)
        ((Blocks.nodes [chain]).map Node.kind) ∧
      ∀ policy scope, (Blocks.meaning policy scope [chain]).map Text.trimmed =
        outcome policy scope (chosen? scope (first :: others) fallback?) := by
  obtain ⟨arms, behind, meaningRest⟩ := exists_arms fallback? others
  obtain ⟨tree, declaresNothing, reads, meaning⟩ := first.body.exists_tree
  have start : "@if ".toList = '@' :: (Keyword.ifThen.word.toList ++ [' ']) := rfl
  refine ⟨.chain 0 first.condition tree arms 0, ?_, fun policy scope => ?_⟩
  · rw [source, String.toList_append]
    simpa [Blocks.nodes, Block.nodes] using
      first.reads_lines start (fun _ _ => rfl) reads behind (head?_sourceAfter fallback? others)
  · rw [Blocks.meaning_singleton, Block.meaning_eq_arms]
    exact meaning_arm declaresNothing (meaning policy scope) (meaningRest policy scope) 0

end Branches

/-! ### Renders -/

namespace Template

/-- The render fails for a key. -/
def MissesKey (template : Template) (context : Value) (options : Options) (key : String) : Prop :=
  ∃ line, (template.render context options).result =
    .error ⟨.missingKey key line, template.name⟩

theorem result_render_eq_ok_iff (template : Template) (context : Value) (policy : MissingKeys)
    (output : String) :
    (template.render context ⟨policy, true⟩).result = .ok output ↔
      unplaced ((template.renderUntrimmed context policy).result.map Text.trimmed) =
        .ok output := by
  rw [result_render]
  cases (template.renderUntrimmed context policy).result with
  | error fault => constructor <;> intro impossible <;> cases impossible
  | ok text =>
    constructor
    · intro rendered
      cases rendered
      rfl
    · intro rendered
      cases rendered
      rfl

theorem missesKey_iff (template : Template) (context : Value) (policy : MissingKeys)
    (key : String) :
    template.MissesKey context ⟨policy, true⟩ key ↔
      unplaced ((template.renderUntrimmed context policy).result.map Text.trimmed) =
        .error (some key) := by
  rw [MissesKey, result_render]
  cases (template.renderUntrimmed context policy).result with
  | error fault =>
    constructor
    · rintro ⟨line, failed⟩
      cases failed
      rfl
    · intro missed
      cases fault with
      | missingKey missing line =>
        cases missed
        exact ⟨line, rfl⟩
      | _ => cases missed
  | ok text =>
    constructor
    · rintro ⟨line, impossible⟩
      cases impossible
    · intro impossible
      cases impossible

end Template

/-- **A chain of whole templates renders its first true arm.** The source of the chain
compiles. Whatever the context and the policy, its trimmed render and that of the
chosen body alone come to the same output, or they miss the same key. If no body
is chosen, the output is empty. -/
theorem render_branches (first : Branch) (others : List Branch) (fallback? : Option Body)
    (name : Option String) :
    ∃ template, Template.ofSource name (Branches.source first others fallback?) = .ok template ∧
      ∀ context policy,
        match Branches.chosen? ⟨context, ∅⟩ (first :: others) fallback? with
        | some body =>
          (∀ output, (template.render context ⟨policy, true⟩).result = .ok output ↔
            (body.template.render context ⟨policy, true⟩).result = .ok output) ∧
          ∀ key, template.MissesKey context ⟨policy, true⟩ key ↔
            body.template.MissesKey context ⟨policy, true⟩ key
        | none => (template.render context ⟨policy, true⟩).result = .ok "" := by
  -- The chain has the right kinds of nodes but not their lines, which decide nothing.
  obtain ⟨chain, reads, meaning⟩ := Branches.exists_chain first others fallback?
  obtain ⟨nodes, scanned, kinds⟩ := reads.exists_result 1
  have balanced := Balance.check_of_kinds kinds.symm (Balance.check_eq_ok_iff.mpr ⟨_, rfl⟩)
  obtain ⟨template, compiled, rfl⟩ := Template.exists_ofSource name scanned balanced
  refine ⟨template, compiled, fun context policy => ?_⟩
  have same : unplaced ((template.renderUntrimmed context policy).result.map Text.trimmed) =
      unplaced (Branches.outcome policy ⟨context, ∅⟩
        (Branches.chosen? ⟨context, ∅⟩ (first :: others) fallback?)) := by
    rw [← meaning, ← output_walk_start, template.result_renderUntrimmed_eq_walk]
    simp only [unplaced_map, unplaced_walk policy kinds]
  cases chosen : Branches.chosen? ⟨context, ∅⟩ (first :: others) fallback? with
  | some body =>
    rw [chosen, Branches.outcome, ← result_renderUntrimmed] at same
    constructor
    · intro output
      rw [Template.result_render_eq_ok_iff, Template.result_render_eq_ok_iff, same]
    · intro key
      rw [Template.missesKey_iff, Template.missesKey_iff, same]
  | none =>
    rw [chosen] at same
    exact (template.result_render_eq_ok_iff context policy "").mpr same

/-- Of three bodies of one word, that of the first condition that holds is shown. -/
theorem render_branches_words :
    ∃ template,
      Template.ofSource none "@if x\na\n@elseif y\nb\n@else\nc\n@endif" = .ok template ∧
      ∀ policy,
        (template.render (.object [("x", .bool false), ("y", .bool true)])
          ⟨policy, true⟩).result = .ok "b" := by
  obtain ⟨template, compiled, chosen⟩ := render_branches
    ⟨"x", ⟨"x", .truth "x"⟩, by decide, ⟨1, rfl⟩,
      ⟨⟨none, "a", [⟨1, .text "a"⟩], rfl, rfl⟩, rfl, by decide⟩⟩
    [⟨"y", ⟨"y", .truth "y"⟩, by decide, ⟨1, rfl⟩,
      ⟨⟨none, "b", [⟨1, .text "b"⟩], rfl, rfl⟩, rfl, by decide⟩⟩]
    (some ⟨⟨none, "c", [⟨1, .text "c"⟩], rfl, rfl⟩, rfl, by decide⟩) none
  refine ⟨template, compiled, fun policy => ?_⟩
  rw [(chosen (.object [("x", .bool false), ("y", .bool true)]) policy).1]
  cases policy <;> rfl

end Stencil
