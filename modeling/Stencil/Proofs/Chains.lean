import Stencil.Proofs.Block.Trace

/-!
Open chains by the history of their steps.

Of an open chain only two flags are kept. What they stand for is told by the steps that have
been taken, in any number and any order, stray ones among them: which chains have been started
and not closed (`ChainStep.unclosed`), and what the conditions of the arms of each of them come
to (`Started.arms`). Steps never look at more than the innermost chain, so the open chains are
those of the history, one by one (`OpenChains.after_eq`), and each has the flags that its arms
make (`Chain.active_ofArms`, `Chain.taken_ofArms`).
-/

namespace Stencil

/-! ### Steps -/

/-- A step of the open chains. A condition is given by what it comes to if it is evaluated. -/
inductive ChainStep where
  | start (condition : Bool)
  | elseIf (condition : Bool)
  | otherwise
  | close
  deriving DecidableEq, Repr

namespace ChainStep

/-- The open chains after a step. -/
def apply (opened : OpenChains) : ChainStep → OpenChains
  | .start condition => opened.start condition
  | .elseIf condition => Id.run (opened.elseIf (pure condition))
  | .otherwise => opened.otherwise
  | .close => opened.close

/-- The step belongs to a chain that is open before it. -/
def needsChain : ChainStep → Bool
  | .start _ => false
  | .elseIf _ | .otherwise | .close => true

theorem apply_elseIf (opened : OpenChains) (condition : Bool) :
    apply opened (.elseIf condition) = opened.move condition := by
  rw [apply, OpenChains.elseIf_pure]
  rfl

theorem apply_otherwise (opened : OpenChains) : apply opened .otherwise = opened.move true :=
  opened.otherwise_eq_move

end ChainStep

/-- The open chains after steps, where none was open before. -/
def OpenChains.after (steps : List ChainStep) : OpenChains :=
  steps.foldl ChainStep.apply .none

theorem OpenChains.after_concat (steps : List ChainStep) (step : ChainStep) :
    after (steps ++ [step]) = step.apply (after steps) := by
  rw [after, List.foldl_append]
  rfl

/-! ### Histories -/

namespace ChainStep

/-- What follows the step that closes a chain, given the steps taken inside of it while so many
further chains are open inside. There is none if the chain is still open. -/
def behindEnd? : Nat → List ChainStep → Option (List ChainStep)
  | _, [] => none
  | level, .start _ :: later => behindEnd? (level + 1) later
  | 0, .close :: later => some later
  | level + 1, .close :: later => behindEnd? level later
  | level, .elseIf _ :: later | level, .otherwise :: later => behindEnd? level later

/-- The further arms of a chain among the steps taken inside of it while so many further chains
are open inside: for each arm what its condition comes to, which is true for an `@else`. -/
def laterArms : Nat → List ChainStep → List Bool
  | _, [] => []
  | level, .start _ :: later => laterArms (level + 1) later
  | 0, .close :: _ => []
  | level + 1, .close :: later => laterArms level later
  | 0, .elseIf condition :: later => condition :: laterArms 0 later
  | 0, .otherwise :: later => true :: laterArms 0 later
  | level + 1, .elseIf _ :: later | level + 1, .otherwise :: later => laterArms (level + 1) later

end ChainStep

/-- A chain that has been started: the condition of its first arm, and the steps since then. -/
structure Started where
  condition : Bool
  since : List ChainStep

/-- The arms of a chain so far, by what their conditions come to. -/
def Started.arms (started : Started) : List Bool :=
  started.condition :: ChainStep.laterArms 0 started.since

/-- The chains that have been started and not closed, the one that was started last first. -/
def ChainStep.unclosed : List ChainStep → List Started
  | [] => []
  | .start condition :: since =>
    match behindEnd? 0 since with
    | some _ => unclosed since
    | none => unclosed since ++ [⟨condition, since⟩]
  | _ :: later => unclosed later

example : ChainStep.unclosed [.close, .start true, .start false, .elseIf true, .close, .otherwise] =
      [⟨true, [.start false, .elseIf true, .close, .otherwise]⟩] ∧
    Started.arms ⟨true, [.start false, .elseIf true, .close, .otherwise]⟩ = [true, true] :=
  ⟨rfl, rfl⟩

namespace ChainStep

/-- An outer chain is closed behind the end of the one inside of it. -/
theorem behindEnd?_succ (level : Nat) (steps : List ChainStep) :
    behindEnd? (level + 1) steps = (behindEnd? 0 steps).bind (behindEnd? level) := by
  suffices ∀ inner, behindEnd? (level + 1 + inner) steps =
      (behindEnd? inner steps).bind (behindEnd? level) from this 0
  intro inner
  induction steps generalizing inner with
  | nil => rfl
  | cons step later ih =>
    cases step with
    | start condition => exact ih (inner + 1)
    | elseIf condition => exact ih inner
    | otherwise => exact ih inner
    | close =>
      cases inner with
      | zero => rfl
      | succ inner => exact ih inner

/-- The arms of an outer chain are those behind the end of the one inside of it. -/
theorem laterArms_succ (level : Nat) (steps : List ChainStep) :
    laterArms (level + 1) steps = ((behindEnd? 0 steps).map (laterArms level)).getD [] := by
  suffices ∀ inner, laterArms (level + 1 + inner) steps =
      ((behindEnd? inner steps).map (laterArms level)).getD [] from this 0
  intro inner
  induction steps generalizing inner with
  | nil => rfl
  | cons step later ih =>
    cases step with
    | start condition => exact ih (inner + 1)
    | elseIf | otherwise =>
      have same := ih inner
      rw [Nat.add_right_comm] at same ⊢
      exact same
    | close =>
      cases inner with
      | zero => rfl
      | succ inner => exact ih inner

end ChainStep

/-! ### Flags of a chain by its arms -/

namespace Chain

/-- The chain after it has been moved to further arms. -/
def moveAll (chain : Chain) (arms : List Bool) : Chain :=
  arms.foldl move chain

/-- The chain that has had these arms. -/
def ofArms (arms : List Bool) : Chain :=
  moveAll ⟨false, false⟩ arms

theorem ofArms_concat (arms : List Bool) (holds : Bool) :
    ofArms (arms ++ [holds]) = (ofArms arms).move holds :=
  List.foldl_append

/-- A chain that has been taken stays so, and is taken by any arm that is true. -/
theorem taken_moveAll (chain : Chain) (arms : List Bool) :
    (chain.moveAll arms).taken = (chain.taken || arms.contains true) := by
  induction arms generalizing chain with
  | nil => rw [moveAll, List.foldl_nil, List.contains_nil, Bool.or_false]
  | cons holds later ih =>
    rw [moveAll, List.foldl_cons, ← moveAll, ih, (chain.taken_move holds).2, List.contains_cons,
      Bool.or_assoc, Bool.true_beq]

theorem taken_ofArms (arms : List Bool) : (ofArms arms).taken = true ↔ true ∈ arms := by
  rw [ofArms, taken_moveAll, Bool.false_or, List.contains_iff_mem]

/-- The last one of the arms is the first one that is true. -/
def FirstTrue (arms : List Bool) : Prop :=
  ∃ earlier, arms = earlier ++ [true] ∧ true ∉ earlier

theorem firstTrue_concat_iff {arms : List Bool} {holds : Bool} :
    FirstTrue (arms ++ [holds]) ↔ holds = true ∧ true ∉ arms := by
  constructor
  · rintro ⟨earlier, same, none⟩
    obtain ⟨rfl, last⟩ := List.append_inj' same rfl
    exact ⟨List.head_eq_of_cons_eq last, none⟩
  · rintro ⟨rfl, none⟩
    exact ⟨arms, rfl, none⟩

/-- The current arm is the one to show exactly if it is the first true one. -/
theorem active_ofArms (arms : List Bool) : (ofArms arms).active = true ↔ FirstTrue arms := by
  rcases List.eq_nil_or_concat arms with rfl | ⟨earlier, holds, rfl⟩
  · simp [ofArms, moveAll, FirstTrue]
  · rw [List.concat_eq_append, ofArms_concat, firstTrue_concat_iff, ← taken_ofArms, move]
    cases (ofArms earlier).taken <;> simp

end Chain

/-! ### Chains of a history -/

namespace OpenChains

/-- What is left of chains, innermost first, after steps taken inside of them: those that are
not closed, the innermost one of them moved to its further arms. -/
def remaining : List Chain → List ChainStep → List Chain
  | [], _ => []
  | chain :: outer, steps =>
    match ChainStep.behindEnd? 0 steps with
    | some later => remaining outer later
    | .none => chain.moveAll (ChainStep.laterArms 0 steps) :: outer

/-- Behind the end of a chain that is started, it is as if it had not been there; and until
then nothing happens to the chains around it. -/
theorem remaining_start (chains : List Chain) (condition : Bool) (since : List ChainStep) :
    remaining chains (.start condition :: since) =
      ((ChainStep.behindEnd? 0 since).map (remaining chains)).getD chains := by
  cases chains with
  | nil => cases ChainStep.behindEnd? 0 since <;> rfl
  | cons chain outer =>
    rw [remaining, ChainStep.behindEnd?, ChainStep.laterArms, ChainStep.behindEnd?_succ,
      ChainStep.laterArms_succ]
    cases ChainStep.behindEnd? 0 since <;> rfl

/-- The open chains after steps are those that the steps start and do not close, and what is
left of those that were open before. -/
theorem foldl_apply (chains : List Chain) (steps : List ChainStep) :
    steps.foldl ChainStep.apply ⟨chains⟩ =
      ⟨(ChainStep.unclosed steps).map (fun started => .ofArms started.arms) ++
        remaining chains steps⟩ := by
  induction steps generalizing chains with
  | nil => cases chains <;> rfl
  | cons step later ih =>
    rw [List.foldl_cons]
    cases step with
    | start condition =>
      rw [ChainStep.apply, start, ih, remaining, remaining_start, ChainStep.unclosed]
      cases ChainStep.behindEnd? 0 later with
      | some rest => rfl
      | none =>
        rw [List.map_append, List.append_assoc]
        rfl
    | elseIf condition =>
      rw [ChainStep.apply_elseIf]
      cases chains with
      | nil => exact ih []
      | cons chain outer => exact ih (chain.move condition :: outer)
    | otherwise =>
      rw [ChainStep.apply_otherwise]
      cases chains with
      | nil => exact ih []
      | cons chain outer => exact ih (chain.move true :: outer)
    | close =>
      cases chains with
      | nil => exact ih []
      | cons chain outer => exact ih outer

/-- The open chains are those that have been started and not closed, each with the flags that
its arms make. -/
theorem after_eq (steps : List ChainStep) :
    after steps = ⟨(ChainStep.unclosed steps).map fun started => .ofArms started.arms⟩ := by
  rw [after, none, foldl_apply, remaining, List.append_nil]

/-- An `@elseif` has to evaluate its condition: a chain is open, and no arm of the innermost
one has been true. -/
def Asks (steps : List ChainStep) : Prop :=
  ∃ started ∈ (ChainStep.unclosed steps).head?, true ∉ started.arms

/-- Where the condition is asked for, it is evaluated once and decides; elsewhere it is not
evaluated at all, and what it would come to does not matter. -/
theorem elseIf_after {m : Type → Type} [Monad m] (steps : List ChainStep) (condition : m Bool) :
    (Asks steps → (after steps).elseIf condition = do
      let holds ← condition
      return after (steps ++ [.elseIf holds])) ∧
    (¬ Asks steps → ∀ holds,
      (after steps).elseIf condition = pure (after (steps ++ [.elseIf holds]))) := by
  have moved (holds : Bool) : after (steps ++ [.elseIf holds]) = (after steps).move holds := by
    rw [after_concat, ChainStep.apply_elseIf]
  simp only [moved, Asks]
  rw [after_eq]
  cases ChainStep.unclosed steps with
  | nil => exact ⟨fun ⟨_, innermost, _⟩ => (Option.not_mem_none _ innermost).elim, fun _ _ => rfl⟩
  | cons innermost outer =>
    simp only [List.head?_cons, Option.mem_some, exists_eq_left', ← Chain.taken_ofArms]
    simp only [List.map_cons, elseIf, move, Chain.move]
    cases (Chain.ofArms innermost.arms).taken <;> simp

/-- **The open chains follow first-true arms, whatever the steps.** After any steps, balanced or
not, text is shown exactly if in each chain that has been started and not closed the current arm
is the first one that is true, where an `@else` counts as true. The condition of an `@elseif` is
evaluated, in whatever way, exactly if some chain is open and no arm of the innermost one has
been true. The depth is the number of chains that have been started and not closed. Where there
is none, a step that needs one changes nothing. -/
theorem chains_follow_arms (steps : List ChainStep) :
    ((after steps).isActive = true ↔
        ∀ started ∈ ChainStep.unclosed steps, Chain.FirstTrue started.arms) ∧
      (∀ {m : Type → Type} [Monad m] (condition : m Bool),
        (Asks steps → (after steps).elseIf condition = do
          let holds ← condition
          return after (steps ++ [.elseIf holds])) ∧
        (¬ Asks steps → ∀ holds,
          (after steps).elseIf condition = pure (after (steps ++ [.elseIf holds])))) ∧
      (after steps).depth = (ChainStep.unclosed steps).length ∧
      (ChainStep.unclosed steps = [] → ∀ step : ChainStep, step.needsChain = true →
        after (steps ++ [step]) = after steps) := by
  refine ⟨?_, fun condition => elseIf_after steps condition, ?_, ?_⟩
  · simp only [after_eq, isActive, List.all_map, List.all_eq_true, Function.comp_apply,
      Chain.active_ofArms]
  · rw [after_eq, depth, List.length_map]
  · intro nothing step needs
    rw [after_concat, after_eq, nothing]
    cases step with
    | start condition => cases needs
    | elseIf | otherwise | close => rfl

end OpenChains

end Stencil
