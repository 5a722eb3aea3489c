import Stencil.Proofs.Walk

/-!
The lines of nodes.

Lines are told in events and faults and decide nothing. Nodes of the same kinds
balance alike (`check_of_kinds`), and a walk over them comes to the same output or
misses the same key (`unplaced_walk`).
-/

namespace Stencil

/-- The key that is missing, if that is the fault. -/
def Fault.missing? : Fault → Option String
  | .missingKey key _ => some key
  | _ => none

section Unplaced

variable {α β : Type}

/-- A result without the line on which a key is missing. -/
def unplaced (result : Except Fault α) : Except (Option String) α :=
  result.mapError Fault.missing?

theorem unplaced_bind {result result' : Except Fault α} {next next' : α → Except Fault β}
    (first : unplaced result = unplaced result')
    (second : ∀ value, unplaced (next value) = unplaced (next' value)) :
    unplaced (result.bind next) = unplaced (result'.bind next') := by
  cases result with
  | error fault =>
    cases result' with
    | error fault' => exact congrArg Except.error (Except.error.inj first)
    | ok value' => cases first
  | ok value =>
    cases result' with
    | error fault' => cases first
    | ok value' =>
      cases first
      exact second value

theorem unplaced_map (result : Except Fault α) (f : α → β) :
    unplaced (result.map f) = (unplaced result).map f := by
  cases result <;> rfl

end Unplaced

/-! ### Walks -/

section Walks

variable (policy : MissingKeys)

theorem unplaced_fillSegments (scope : Scope) (line line' : Nat) (segments : List Marker.Segment) :
    unplaced (Marker.fillSegments policy scope line segments).result =
      unplaced (Marker.fillSegments policy scope line' segments).result := by
  induction segments with
  | nil => rfl
  | cons segment rest ih =>
    have first : unplaced (segment.fill policy scope line).result =
        unplaced (segment.fill policy scope line').result := by
      cases segment with
      | literal c => rfl
      | key name =>
        simp only [Marker.Segment.fill]
        cases scope.display? name with
        | some text => rfl
        | none => cases policy <;> rfl
    simp only [Marker.fillSegments, Logged.result_bind]
    exact unplaced_bind first fun text => unplaced_bind ih fun following => rfl

theorem unplaced_fill (scope : Scope) (line line' : Nat) (text : String) :
    unplaced (Marker.fill policy scope line text).result =
      unplaced (Marker.fill policy scope line' text).result := by
  simp only [Marker.fill, Logged.result_bind]
  exact unplaced_bind (unplaced_fillSegments policy scope line line' _) fun filled => rfl

theorem unplaced_step {node node' : Node} (same : node.kind = node'.kind) (progress : Progress) :
    unplaced (progress.step policy node).result = unplaced (progress.step policy node').result := by
  obtain ⟨line, kind⟩ := node
  obtain ⟨line', kind'⟩ := node'
  obtain rfl : kind = kind' := same
  cases kind with
  | text text =>
    simp only [Progress.result_step_text]
    split
    · rw [unplaced_map, unplaced_map, unplaced_fill policy progress.scope line line' text]
    · rfl
  | declare name value => rfl
  | ifThen condition => rfl
  | elseIf condition => simp only [Progress.result_step_elseIf]
  | otherwise => simp only [Progress.result_step_otherwise]
  | endIf => rfl

/-- Walks over nodes of the same kinds come to the same, but for the line on which a
key is missing. -/
theorem unplaced_walk {nodes nodes' : List Node}
    (same : nodes.map Node.kind = nodes'.map Node.kind) (progress : Progress) :
    unplaced (progress.walk policy nodes).result =
      unplaced (progress.walk policy nodes').result := by
  induction nodes generalizing nodes' progress with
  | nil =>
    obtain rfl := List.map_eq_nil_iff.mp same.symm
    rfl
  | cons node nodes ih =>
    obtain ⟨node', later, rfl, kind, kinds⟩ := List.map_eq_cons_iff.mp same.symm
    simp only [Progress.walk_cons, Logged.result_bind]
    exact unplaced_bind (unplaced_step policy kind.symm progress) (ih kinds.symm)

end Walks

/-! ### Balance -/

namespace Balance

/-- Nodes of one kind open and close as many chains. -/
theorem exists_step_of_kind {node node' : Node} (same : node.kind = node'.kind)
    {opened opened' later : List Nat} (length : opened.length = opened'.length)
    (stepped : step opened node = .ok later) :
    ∃ later', step opened' node' = .ok later' ∧ later.length = later'.length := by
  obtain ⟨line, kind⟩ := node
  obtain ⟨line', kind'⟩ := node'
  obtain rfl : kind = kind' := same
  cases kind with
  | text | declare =>
    cases stepped
    exact ⟨opened', rfl, length⟩
  | ifThen =>
    cases stepped
    exact ⟨line' :: opened', rfl, congrArg (· + 1) length⟩
  | elseIf | otherwise =>
    cases opened with
    | nil => cases stepped
    | cons first outer =>
      cases opened' with
      | nil => cases length
      | cons first' outer' =>
        cases stepped
        exact ⟨first' :: outer', rfl, length⟩
  | endIf =>
    cases opened with
    | nil => cases stepped
    | cons first outer =>
      cases opened' with
      | nil => cases length
      | cons first' outer' =>
        cases stepped
        exact ⟨outer', rfl, Nat.succ.inj length⟩

theorem exists_openAfter_of_kinds {nodes nodes' : List Node}
    (same : nodes.map Node.kind = nodes'.map Node.kind) {opened opened' closed : List Nat}
    (length : opened.length = opened'.length) (reached : openAfter opened nodes = .ok closed) :
    ∃ closed', openAfter opened' nodes' = .ok closed' ∧ closed.length = closed'.length := by
  induction nodes generalizing nodes' opened opened' with
  | nil =>
    obtain rfl := List.map_eq_nil_iff.mp same.symm
    cases reached
    exact ⟨opened', rfl, length⟩
  | cons node nodes ih =>
    obtain ⟨node', later, rfl, kind, kinds⟩ := List.map_eq_cons_iff.mp same.symm
    rw [openAfter_cons] at reached ⊢
    obtain ⟨between, stepped, later⟩ := exists_of_bind_eq_ok reached
    obtain ⟨between', stepped', length'⟩ := exists_step_of_kind kind.symm length stepped
    rw [stepped']
    exact ih kinds.symm length' later

/-- Whether nodes balance is decided by their kinds. -/
theorem check_of_kinds {nodes nodes' : List Node}
    (same : nodes.map Node.kind = nodes'.map Node.kind) (balanced : check nodes = .ok ()) :
    check nodes' = .ok () := by
  rw [check_eq_ok_iff_openAfter] at balanced ⊢
  have none : ([] : List Nat).length = ([] : List Nat).length := rfl
  obtain ⟨closed, reached, length⟩ := exists_openAfter_of_kinds same none balanced
  rw [reached, List.length_eq_zero_iff.mp length.symm]

end Balance

end Stencil
