import Stencil.Proofs.Block.Meaning

/-!
What a render reports about conditionals.

The events about conditional directives mirror the tree of the template. A chain that stands
in `depth` chains reports its `@if` and its `@endif` at this depth, and between them what the
bodies of its arms report, one chain deeper, and the heads of its arms (`Blocks.Traced`). So
the nodes alone tell all that is reported but the flags (`Blocks.map_undecided`).

The flags of a chain follow from the conditions of its arms by one law (`Chain.count_flags`):
as many are true as arms have been taken, one if some condition holds and none otherwise. An
arm is stepped to and reported whether the chain is shown or not, so the law is that of the
chain alone.
-/

namespace Stencil

/-! ### Events about conditionals -/

namespace Event

/-- The event is about a conditional directive. -/
def isConditional : Event → Bool
  | .ifOpened _ _ _ | .elseIfReached _ _ | .elseReached _ _ | .chainClosed _ _ => true
  | .compiled _ _ | .keyMissing _ _ | .rendered _ _ _ => false

/-- The event without what a condition came to. -/
def undecided : Event → Event
  | .ifOpened _ line depth => .ifOpened false line depth
  | .elseIfReached _ line => .elseIfReached false line
  | .elseReached _ line => .elseReached false line
  | other => other

end Event

/-- The events about conditional directives, in order. -/
def conditionals (events : List Event) : List Event :=
  events.filter Event.isConditional

theorem conditionals_append (events events' : List Event) :
    conditionals (events ++ events') = conditionals events ++ conditionals events' :=
  List.filter_append events events'

/-- What is reported at a node that `depth` chains enclose, whatever its condition comes to. Of
the chains that enclose an `@endif`, one is its own. -/
def Node.report? (depth : Nat) (node : Node) : Option Event :=
  match node.kind with
  | .ifThen _ => some (.ifOpened false node.line depth)
  | .elseIf _ => some (.elseIfReached false node.line)
  | .otherwise => some (.elseReached false node.line)
  | .endIf => some (.chainClosed node.line (depth - 1))
  | .text _ | .declare _ _ => none

/-- What is reported at nodes, each given with the chains that enclose it. -/
def reports (places : List (List Nat × Node)) : List Event :=
  places.filterMap fun place => place.2.report? place.1.length

theorem reports_cons (chains : List Nat) (node : Node) (places : List (List Nat × Node)) :
    reports ((chains, node) :: places) = (node.report? chains.length).toList ++ reports places := by
  rw [reports, List.filterMap_cons]
  cases node.report? chains.length <;> rfl

theorem reports_append (places places' : List (List Nat × Node)) :
    reports (places ++ places') = reports places ++ reports places' :=
  List.filterMap_append

/-! ### Traces of a tree -/

/-- The event at the head of an arm after the first one. -/
def Arm.event (line : Nat) (condition? : Option Condition) (active : Bool) : Event :=
  match condition? with
  | some _ => .elseIfReached active line
  | none => .elseReached active line

theorem Arm.conditionals_event (line : Nat) (condition? : Option Condition) (active : Bool) :
    conditionals [Arm.event line condition? active] = [Arm.event line condition? active] := by
  cases condition? <;> rfl

/-- The arm is an `@else`. -/
def Arm.isOtherwise : Arm → Bool
  | .mk _ condition? _ => condition?.isNone

mutual

/-- The events about conditionals that a block in `depth` chains may have. At most one arm of a
chain is reported as the chosen one, and exactly one if the chain has an `@else`. -/
inductive Block.Traced : Nat → Block → List Event → Prop
  | text {depth line : Nat} {text : String} : Block.Traced depth (.text line text) []
  | declare {depth line : Nat} {name : String} {value : Scalar} :
      Block.Traced depth (.declare line name value) []
  | chain {depth line endLine : Nat} {condition : Condition} {body : List Block}
      {others : List Arm} {first : Bool} {flags : List Bool} {inner outer : List Event}
      (within : Blocks.Traced (depth + 1) body inner)
      (behind : Arms.Traced (depth + 1) others flags outer)
      (atMost : (first :: flags).count true ≤ 1)
      (exactly : others.any Arm.isOtherwise = true → (first :: flags).count true = 1) :
      Block.Traced depth (.chain line condition body others endLine)
        (.ifOpened first line depth :: (inner ++ (outer ++ [.chainClosed endLine depth])))

/-- The events about conditionals that a body in `depth` chains may have. -/
inductive Blocks.Traced : Nat → List Block → List Event → Prop
  | nil {depth : Nat} : Blocks.Traced depth [] []
  | cons {depth : Nat} {block : Block} {rest : List Block} {events events' : List Event}
      (first : Block.Traced depth block events) (behind : Blocks.Traced depth rest events') :
      Blocks.Traced depth (block :: rest) (events ++ events')

/-- The flags and the events that the arms of a chain after the first one may have; `depth`
counts the chain. -/
inductive Arms.Traced : Nat → List Arm → List Bool → List Event → Prop
  | nil {depth : Nat} : Arms.Traced depth [] [] []
  | cons {depth line : Nat} {condition? : Option Condition} {body : List Block}
      {rest : List Arm} {active : Bool} {flags : List Bool} {inner outer : List Event}
      (within : Blocks.Traced depth body inner) (behind : Arms.Traced depth rest flags outer) :
      Arms.Traced depth (.mk line condition? body :: rest) (active :: flags)
        (Arm.event line condition? active :: (inner ++ outer))

end

mutual

/-- Without the flags, the trace of a block is told by its nodes and what encloses them. -/
theorem Block.map_undecided (chains : List Nat) {events : List Event} : (block : Block) →
    block.Traced chains.length events →
    events.map Event.undecided = reports (block.enclosed chains)
  | .text line text, traced => by
    cases traced
    rfl
  | .declare line name value, traced => by
    cases traced
    rfl
  | .chain line condition body others endLine, traced => by
    cases traced with
    | chain within behind _ _ =>
      have inner := Blocks.map_undecided (line :: chains) body within
      have outer := Arms.map_undecided (line :: chains) others behind
      simp only [List.map_cons, List.map_append, inner, outer]
      rw [Block.enclosed, reports_cons, reports_append, reports_append]
      rfl

theorem Blocks.map_undecided (chains : List Nat) {events : List Event} : (body : List Block) →
    Blocks.Traced chains.length body events →
    events.map Event.undecided = reports (Blocks.enclosed chains body)
  | [], traced => by
    cases traced
    rfl
  | block :: rest, traced => by
    cases traced with
    | cons first behind =>
      rw [List.map_append, Block.map_undecided chains block first,
        Blocks.map_undecided chains rest behind, Blocks.enclosed, reports_append]

theorem Arms.map_undecided (chains : List Nat) {flags : List Bool} {events : List Event} :
    (arms : List Arm) → Arms.Traced chains.length arms flags events →
    events.map Event.undecided = reports (Arms.enclosed chains arms)
  | [], traced => by
    cases traced
    rfl
  | .mk line condition? body :: rest, traced => by
    cases traced with
    | cons within behind =>
      have inner := Blocks.map_undecided chains body within
      have outer := Arms.map_undecided chains rest behind
      simp only [List.map_cons, List.map_append, inner, outer]
      rw [Arms.enclosed, reports_cons, reports_append]
      cases condition? <;> rfl

end

/-! ### Flags of a chain -/

namespace Chain

/-- Whether each further arm of a chain is the one to show, given the conditions of the arms. -/
def flags (chain : Chain) : List Bool → List Bool
  | [] => []
  | holds :: rest => (chain.move holds).active :: (chain.move holds).flags rest

/-- The arm that is moved to is the chosen one exactly if with it the chain comes to be taken. -/
theorem taken_move (chain : Chain) (holds : Bool) :
    chain.taken.toNat + (chain.move holds).active.toNat = (chain.move holds).taken.toNat ∧
      (chain.move holds).taken = (chain.taken || holds) := by
  obtain ⟨active, taken⟩ := chain
  cases taken <;> cases holds <;> exact ⟨rfl, rfl⟩

/-- One arm is the chosen one if an arm has been taken or a condition holds, and none
otherwise. -/
theorem count_flags (chain : Chain) (holds : List Bool) :
    chain.taken.toNat + (chain.flags holds).count true =
      (chain.taken || holds.any id).toNat := by
  induction holds generalizing chain with
  | nil => simp [flags]
  | cons first rest ih =>
    obtain ⟨chosen, taken⟩ := chain.taken_move first
    have later := ih (chain.move first)
    have counted : (chain.flags (first :: rest)).count true =
        ((chain.move first).flags rest).count true + (chain.move first).active.toNat := by
      rw [flags, List.count_cons]
      cases (chain.move first).active <;> rfl
    calc chain.taken.toNat + (chain.flags (first :: rest)).count true
        = (chain.move first).taken.toNat + ((chain.move first).flags rest).count true := by omega
      _ = ((chain.move first).taken || rest.any id).toNat := later
      _ = (chain.taken || (first :: rest).any id).toNat := by
        rw [taken, List.any_cons, Bool.or_assoc]
        rfl

example : (Chain.mk false false).flags [false, true, true] = [false, true, false] := by decide

/-- Of all arms of a chain, that of its `@if` included, one is the chosen one if a condition
holds, and none otherwise. -/
theorem count_first_flags (first : Bool) (holds : List Bool) :
    (first :: (Chain.mk first first).flags holds).count true = (first || holds.any id).toNat := by
  have counted := count_flags ⟨first, first⟩ holds
  rw [List.count_cons, ← counted]
  cases first <;> simp [Nat.add_comm]

end Chain

/-! ### Events of steps -/

namespace Logged

variable {ε α β : Type}

/-- Nothing is reported about conditionals. -/
def IsQuiet (computation : Logged ε α) : Prop :=
  conditionals computation.events = []

theorem IsQuiet.bind {first : Logged ε α} {next : α → Logged ε β} (quiet : first.IsQuiet)
    (quiet' : ∀ value, (next value).IsQuiet) : (first >>= next).IsQuiet := by
  obtain ⟨events, result⟩ := first
  cases result with
  | error error => exact quiet
  | ok value =>
    have both : conditionals (events ++ (next value).events) = [] := by
      rw [conditionals_append, quiet, quiet' value, List.append_nil]
    exact both

/-- If steps in sequence succeed, the events of one stand behind those of the other. -/
theorem exists_of_bind_ok {first : Logged ε α} {next : α → Logged ε β} {value : β}
    (succeeds : (first >>= next).result = .ok value) :
    ∃ between, first.result = .ok between ∧ (next between).result = .ok value ∧
      (first >>= next).events = first.events ++ (next between).events := by
  rw [result_bind] at succeeds
  obtain ⟨between, started, finished⟩ := exists_of_bind_eq_ok succeeds
  exact ⟨between, started, finished, by rw [bind_of_ok started]⟩

end Logged

theorem Marker.isQuiet_fillSegments (policy : MissingKeys) (scope : Scope) (line : Nat)
    (segments : List Segment) : (fillSegments policy scope line segments).IsQuiet := by
  induction segments with
  | nil => rfl
  | cons segment rest ih =>
    have first : (segment.fill policy scope line).IsQuiet := by
      cases segment with
      | literal c => rfl
      | key name =>
        simp only [Segment.fill]
        cases scope.display? name with
        | some text => rfl
        | none => cases policy <;> rfl
    exact first.bind fun text => ih.bind fun following => rfl

theorem Marker.isQuiet_fill (policy : MissingKeys) (scope : Scope) (line : Nat) (text : String) :
    (fill policy scope line text).IsQuiet :=
  (isQuiet_fillSegments policy scope line _).bind fun _ => rfl

namespace Progress

theorem isQuiet_step_text (policy : MissingKeys) (progress : Progress) (line : Nat)
    (text : String) : (progress.step policy ⟨line, .text text⟩).IsQuiet := by
  simp only [step, Progress.text]
  split
  · exact (Marker.isQuiet_fill policy progress.scope line text).bind fun _ => rfl
  · rfl

/-- Arriving at an arm reports whether it is the one to show. -/
theorem events_step_head (policy : MissingKeys) (progress : Progress) (chain : Chain) (line : Nat)
    (condition? : Option Condition) (body : List Block) :
    ((progress.inChain chain).step policy (Arm.head line condition?)).events =
      [Arm.event line condition?
        (chain.move ((Arm.mk line condition? body).isTrue progress.scope)).active] := by
  cases condition? with
  | none =>
    simp only [Arm.head, step, otherwise, OpenChains.otherwise_eq_move]
    rfl
  | some condition =>
    simp only [Arm.head, step, elseIf, OpenChains.elseIf_pure, pure_bind]
    rfl

/-- Behind the body of an arm the chain is as it was, and the walk goes on from there. -/
theorem exists_of_walk_arm {policy : MissingKeys} {progress progress' : Progress} {chain : Chain}
    {body : List Block} {rest : List Node}
    (walked : ((progress.inChain chain).walk policy (Blocks.nodes body ++ rest)).result =
      .ok progress') :
    ∃ between output, ((progress.inChain chain).walk policy (Blocks.nodes body)).result =
        .ok between ∧
      (((progress.extend (Blocks.nodes body) output).inChain chain).walk policy rest).result =
        .ok progress' ∧
      ((progress.inChain chain).walk policy (Blocks.nodes body ++ rest)).events =
        ((progress.inChain chain).walk policy (Blocks.nodes body)).events ++
          (((progress.extend (Blocks.nodes body) output).inChain chain).walk policy
            rest).events := by
  rw [walk_append] at walked ⊢
  obtain ⟨between, within, behind, events⟩ := Logged.exists_of_bind_ok walked
  have written := within
  rw [walk_blocks] at written
  obtain ⟨output, _, rfl⟩ := exists_of_map_eq_ok written
  exact ⟨_, output, within, behind, events⟩

end Progress

/-! ### Walks -/

mutual

/-- What a walk over a block reports about conditionals is a trace of the block. -/
theorem traced_block {policy : MissingKeys} {progress progress' : Progress} : (block : Block) →
    (progress.walk policy block.nodes).result = .ok progress' →
    block.Traced progress.chains.depth
      (conditionals (progress.walk policy block.nodes).events)
  | .text line text, walked => by
    -- A text reports missing keys at most.
    rw [Block.nodes, Progress.walk_cons] at walked ⊢
    have quiet := (Progress.isQuiet_step_text policy progress line text).bind fun between =>
      (rfl : (between.walk policy []).IsQuiet)
    rw [quiet]
    exact .text
  | .declare line name value, _ => .declare
  | .chain line condition body others endLine, walked => by
    rw [Block.nodes, Progress.walk_cons] at walked ⊢
    obtain ⟨opened, started, walked, events⟩ := Logged.exists_of_bind_ok walked
    -- Behind the `@if`, the rest of the block is walked over inside one more chain.
    have entered : (progress.step policy ⟨line, .ifThen condition⟩).result =
        .ok (progress.inChain ⟨condition.holds progress.scope, condition.holds progress.scope⟩) :=
      rfl
    obtain rfl := Except.ok.inj (entered.symm.trans started)
    rw [events]
    obtain ⟨_, output, within, behind, events⟩ := Progress.exists_of_walk_arm walked
    have inner := traced_blocks body within
    obtain ⟨holds, outer, arms, reported, last⟩ := traced_arms others behind
    have count := Chain.count_first_flags (condition.holds progress.scope) holds
    rw [events, conditionals_append, conditionals_append, reported]
    refine Block.Traced.chain inner arms ?_ ?_
    · rw [count]
      exact Bool.toNat_le _
    · intro final
      rw [count, last final, Bool.or_true]
      rfl

theorem traced_blocks {policy : MissingKeys} {progress progress' : Progress} :
    (body : List Block) → (progress.walk policy (Blocks.nodes body)).result = .ok progress' →
    Blocks.Traced progress.chains.depth body
      (conditionals (progress.walk policy (Blocks.nodes body)).events)
  | [], _ => .nil
  | block :: rest, walked => by
    rw [Blocks.nodes, Progress.walk_append] at walked ⊢
    obtain ⟨between, first, behind, events⟩ := Logged.exists_of_bind_ok walked
    -- The first block leaves the open chains as they are.
    have depth : between.chains.depth = progress.chains.depth := by
      rw [walk_block] at first
      obtain ⟨output, _, rfl⟩ := exists_of_map_eq_ok first
      rfl
    have later := traced_blocks rest behind
    rw [depth] at later
    rw [events, conditionals_append]
    exact .cons (traced_block block first) later

/-- What a walk over the arms that are left of a chain, and out of it, reports about
conditionals. The condition of an `@else` holds. -/
theorem traced_arms {policy : MissingKeys} {progress progress' : Progress} {chain : Chain}
    {endLine : Nat} : (arms : List Arm) →
    ((progress.inChain chain).walk policy (Arms.nodes arms ++ [⟨endLine, .endIf⟩])).result =
      .ok progress' →
    ∃ holds outer, Arms.Traced (progress.chains.depth + 1) arms (chain.flags holds) outer ∧
      conditionals ((progress.inChain chain).walk policy
        (Arms.nodes arms ++ [⟨endLine, .endIf⟩])).events =
          outer ++ [.chainClosed endLine progress.chains.depth] ∧
      (arms.any Arm.isOtherwise = true → holds.any id = true)
  | [], _ => ⟨[], [], .nil, rfl, id⟩
  | .mk line condition? body :: rest, walked => by
    rw [Arms.nodes, List.cons_append, Progress.walk_cons] at walked ⊢
    obtain ⟨arrived, started, walked, events⟩ := Logged.exists_of_bind_ok walked
    rw [events, Progress.events_step_head policy progress chain line condition? body]
    rw [Progress.result_step_head policy progress chain line condition? body] at started
    obtain rfl := Except.ok.inj started
    rw [List.append_assoc] at walked ⊢
    obtain ⟨_, output, within, behind, events⟩ := Progress.exists_of_walk_arm walked
    have inner := traced_blocks body within
    obtain ⟨holds, outer, arms, reported, last⟩ := traced_arms rest behind
    refine ⟨(Arm.mk line condition? body).isTrue progress.scope :: holds, _,
      .cons inner arms, ?_, ?_⟩
    · rw [events, conditionals_append, conditionals_append, reported, Arm.conditionals_event,
        List.singleton_append, ← List.append_assoc]
      rfl
    · intro final
      cases condition? with
      | none => rfl
      | some condition =>
        rw [List.any_cons, last final, Bool.or_true]

end

namespace Template

/-- What a render reports about conditionals before its output is trimmed is a trace of the
tree, if it succeeds. -/
theorem traced_renderUntrimmed {template : Template} {context : Value} {policy : MissingKeys}
    {output : String} (rendered : (template.renderUntrimmed context policy).result = .ok output) :
    Blocks.Traced 0 template.blocks
      (conditionals (template.renderUntrimmed context policy).events) := by
  rw [renderUntrimmed] at rendered
  obtain ⟨progress, walked, _, events⟩ := Logged.exists_of_bind_ok rendered
  have onlyWalk : conditionals (template.renderUntrimmed context policy).events =
      conditionals ((Progress.start context).walk policy template.nodes).events := by
    rw [renderUntrimmed, events, conditionals_append]
    exact List.append_nil _
  rw [onlyWalk]
  rw [← template.nodes_blocks] at walked ⊢
  exact traced_blocks template.blocks walked

/-- What a successful render reports about conditionals is a trace of the tree. -/
theorem traced_render {template : Template} {context : Value} {options : Options}
    {output : String} (rendered : (template.render context options).result = .ok output) :
    Blocks.Traced 0 template.blocks
      (conditionals (template.render context options).events) := by
  rw [render_eq] at rendered ⊢
  cases untrimmed : (template.renderUntrimmed context options.missingKeys).result with
  | error fault =>
    rw [untrimmed] at rendered
    cases rendered
  | ok written => exact traced_renderUntrimmed untrimmed

end Template

/-- **What is reported about conditionals mirrors the structure of the template.** The events
about conditionals of a successful render stand one for one, in order, for the `@if`, `@elseif`,
`@else` and `@endif` nodes of the template and carry their lines; the depth of an `@if` is the
number of chains that enclose it, and its `@endif` has the same. In each chain at most one flag
is true, and exactly one if it has an `@else`. So successful renders report the same about
conditionals, flags aside. -/
theorem trace_mirrors_structure (template : Template) :
    (Blocks.enclosed [] template.blocks).map Prod.snd = template.nodes ∧
      (∀ context options output, (template.render context options).result = .ok output →
        Blocks.Traced 0 template.blocks
          (conditionals (template.render context options).events) ∧
        (conditionals (template.render context options).events).map Event.undecided =
          reports (Blocks.enclosed [] template.blocks)) ∧
      ∀ context options output context' options' output',
        (template.render context options).result = .ok output →
        (template.render context' options').result = .ok output' →
        (conditionals (template.render context options).events).map Event.undecided =
          (conditionals (template.render context' options').events).map Event.undecided := by
  have told {context : Value} {options : Options} {output : String}
      (rendered : (template.render context options).result = .ok output) :
      (conditionals (template.render context options).events).map Event.undecided =
        reports (Blocks.enclosed [] template.blocks) :=
    Blocks.map_undecided [] template.blocks (Template.traced_render rendered)
  refine ⟨?nodes, ?traced, ?alike⟩
  case nodes =>
    rw [← template.openedAt_nodes]
    exact Balance.map_snd_openedAt (Balance.check_eq_ok_iff_openAfter.mp template.balanced)
  case traced =>
    intro context options output rendered
    exact ⟨Template.traced_render rendered, told rendered⟩
  case alike =>
    intro context options output context' options' output' rendered rendered'
    rw [told rendered, told rendered']

end Stencil
