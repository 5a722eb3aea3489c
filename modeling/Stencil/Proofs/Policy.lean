import Stencil.Proofs.Walk

/-!
The three policies for keys without a value.

What a computation comes to under `ignore` and under `error` can be read off what
it comes to under `warn`: the one drops the warnings (`Logged.quiet`), the other
fails at the first one (`Logged.strict`). Both readings respect the order of
steps and keep all other events, and every such reading goes through a whole
render (`Rereading.renderUntrimmed_eq`). As a render under `warn` always succeeds,
the three policies agree (`policies_agree`).
-/

namespace Stencil

/-- The key and the line of a warning. -/
def Event.missing? : Event → Option (String × Nat)
  | .keyMissing key line => some (key, line)
  | _ => none

theorem Event.missing?_eq_some_iff {event : Event} {key : String} {line : Nat} :
    event.missing? = some (key, line) ↔ event = .keyMissing key line := by
  cases event <;> simp [missing?]

/-- Warnings are the events of the level `warn`. -/
theorem Event.missing?_eq_none_iff {event : Event} :
    event.missing? = none ↔ event.level ≠ .warn := by
  cases event <;> simp [missing?, level]

/-! ### Readings of a computation with warnings -/

namespace Logged

variable {α β : Type}

/-- The computation behind one more event. -/
def after (event : Event) (computation : Logged Fault α) : Logged Fault α :=
  ⟨event :: computation.events, computation.result⟩

theorem after_bind (event : Event) (first : Logged Fault α) (next : α → Logged Fault β) :
    after event first >>= next = after event (first >>= next) := by
  obtain ⟨events, result⟩ := first
  cases result <;> rfl

/-- The computation without its warnings. -/
def quiet (computation : Logged Fault α) : Logged Fault α :=
  ⟨computation.events.filter fun event => event.level != .warn, computation.result⟩

/-- What events and the result behind them come to if the first warning is an error. -/
def strictFrom (result : Except Fault α) : List Event → Logged Fault α
  | [] => ⟨[], result⟩
  | event :: later =>
    match event.missing? with
    | some (key, line) => fail (.missingKey key line)
    | none => after event (strictFrom result later)

/-- The computation as it is if its first warning is an error. -/
def strict (computation : Logged Fault α) : Logged Fault α :=
  strictFrom computation.result computation.events

theorem quiet_bind (first : Logged Fault α) (next : α → Logged Fault β) :
    quiet (first >>= next) = quiet first >>= fun value => quiet (next value) := by
  obtain ⟨events, result⟩ := first
  cases result with
  | error fault => rfl
  | ok value =>
    rw [bind_of_ok rfl]
    simp only [quiet, List.filter_append]
    rfl

theorem strict_after (event : Event) (computation : Logged Fault α) :
    strict (after event computation) =
      match event.missing? with
      | some (key, line) => fail (.missingKey key line)
      | none => after event (strict computation) :=
  rfl

theorem strict_bind (first : Logged Fault α) (next : α → Logged Fault β) :
    strict (first >>= next) = strict first >>= fun value => strict (next value) := by
  obtain ⟨events, result⟩ := first
  induction events with
  | nil => cases result <;> rfl
  | cons event later ih =>
    have earlier : (⟨event :: later, result⟩ : Logged Fault α) = after event ⟨later, result⟩ := rfl
    rw [earlier, after_bind, strict_after, strict_after]
    cases event.missing? with
    | some missing => rfl
    | none => exact (congrArg (after event) ih).trans (after_bind event _ _).symm

/-- Either there is no warning and nothing changes, or the events before the first
one are kept and the key that it tells is an error. -/
theorem strict_cases (computation : Logged Fault α) :
    (∀ event ∈ computation.events, event.level ≠ .warn) ∧ strict computation = computation ∨
      ∃ before key line later, computation.events = before ++ .keyMissing key line :: later ∧
        (∀ event ∈ before, event.level ≠ .warn) ∧
        strict computation = ⟨before, .error (.missingKey key line)⟩ := by
  obtain ⟨events, result⟩ := computation
  induction events with
  | nil => exact Or.inl ⟨fun _ member => absurd member List.not_mem_nil, rfl⟩
  | cons event later ih =>
    have earlier : (⟨event :: later, result⟩ : Logged Fault α) = after event ⟨later, result⟩ := rfl
    rw [earlier, strict_after]
    cases missing : event.missing? with
    | some pair =>
      obtain ⟨key, line⟩ := pair
      rw [Event.missing?_eq_some_iff] at missing
      subst missing
      exact Or.inr ⟨[], key, line, later, rfl, fun _ member => absurd member List.not_mem_nil, rfl⟩
    | none =>
      rw [Event.missing?_eq_none_iff] at missing
      rcases ih with ⟨none, same⟩ | ⟨before, key, line, rest, split, none, failed⟩
      · refine Or.inl ⟨List.forall_mem_cons.mpr ⟨missing, none⟩, ?_⟩
        rw [same]
      · refine Or.inr ⟨event :: before, key, line, rest, congrArg (event :: ·) split,
          List.forall_mem_cons.mpr ⟨missing, none⟩, ?_⟩
        rw [failed]
        rfl

end Logged

/-! ### Readings go through a render -/

/-- A way to read off what computations come to under a policy from what they come
to under `warn`: step by step, with all events kept that are no warnings. -/
structure Rereading (policy : MissingKeys) where
  read : {α : Type} → Logged Fault α → Logged Fault α
  read_pure : ∀ {α : Type} (value : α), read (pure value) = pure value
  read_bind : ∀ {α β : Type} (first : Logged Fault α) (next : α → Logged Fault β),
    read (first >>= next) = read first >>= fun value => read (next value)
  read_log : ∀ event : Event, event.level ≠ .warn → read (Logged.log event) = Logged.log event
  read_missing : ∀ line key,
    read (Marker.missing .warn line key) = Marker.missing policy line key

namespace Rereading

/-- Under `ignore` there are no warnings. -/
def quiet : Rereading .ignore where
  read := Logged.quiet
  read_pure _ := rfl
  read_bind := Logged.quiet_bind
  read_log event kept := by
    have keeps : (event.level != .warn) = true := bne_iff_ne.mpr kept
    simp [Logged.quiet, Logged.log, keeps]
  read_missing _ _ := rfl

/-- Under `error` the first warning is an error. -/
def strict : Rereading .error where
  read := Logged.strict
  read_pure _ := rfl
  read_bind := Logged.strict_bind
  read_log event kept := by
    have none := Event.missing?_eq_none_iff.mpr kept
    simp [Logged.strict, Logged.strictFrom, Logged.log, none, Logged.after]
  read_missing _ _ := rfl

variable {policy : MissingKeys} (reading : Rereading policy)

theorem fillSegments_eq (scope : Scope) (line : Nat) (segments : List Marker.Segment) :
    Marker.fillSegments policy scope line segments =
      reading.read (Marker.fillSegments .warn scope line segments) := by
  induction segments with
  | nil => exact (reading.read_pure _).symm
  | cons segment rest ih =>
    have first : segment.fill policy scope line = reading.read (segment.fill .warn scope line) := by
      cases segment with
      | literal c => exact (reading.read_pure _).symm
      | key name =>
        simp only [Marker.Segment.fill]
        cases scope.display? name with
        | some text => exact (reading.read_pure _).symm
        | none => exact (reading.read_missing line name).symm
    simp only [Marker.fillSegments, first, ih, reading.read_bind, reading.read_pure]

theorem fill_eq (scope : Scope) (line : Nat) (text : String) :
    Marker.fill policy scope line text = reading.read (Marker.fill .warn scope line text) := by
  simp only [Marker.fill, reading.fillSegments_eq, reading.read_bind, reading.read_pure]

/-- Arriving in an arm reports nothing that a reading changes. -/
theorem read_arrive (progress : Progress) (chains : OpenChains) {event : Bool → Event}
    (kept : ∀ active, (event active).level ≠ .warn) :
    reading.read (progress.arrive chains event) = progress.arrive chains event := by
  unfold Progress.arrive
  cases chains.innermost? with
  | none => exact reading.read_pure _
  | some chain => simp only [reading.read_bind, reading.read_log _ (kept _), reading.read_pure]

theorem step_eq (progress : Progress) (node : Node) :
    progress.step policy node = reading.read (progress.step .warn node) := by
  obtain ⟨line, kind⟩ := node
  cases kind with
  | text text =>
    simp only [Progress.step, Progress.text]
    split
    · simp only [reading.fill_eq, reading.read_bind, reading.read_pure]
    · exact (reading.read_pure _).symm
  | declare name value => exact (reading.read_pure _).symm
  | ifThen condition =>
    have kept (holds : Bool) (depth : Nat) : (Event.ifOpened holds line depth).level ≠ .warn := by
      simp [Event.level]
    simp only [Progress.step, Progress.ifThen, reading.read_bind, reading.read_pure,
      reading.read_log _ (kept _ _)]
  | elseIf condition =>
    simp only [Progress.step, Progress.elseIf, OpenChains.elseIf_pure, pure_bind]
    exact (reading.read_arrive _ _ fun active => by simp [Event.level]).symm
  | otherwise =>
    simp only [Progress.step, Progress.otherwise]
    exact (reading.read_arrive _ _ fun active => by simp [Event.level]).symm
  | endIf =>
    have kept (depth : Nat) : (Event.chainClosed line depth).level ≠ .warn := by
      simp [Event.level]
    simp only [Progress.step, Progress.endIf, reading.read_bind, reading.read_pure,
      reading.read_log _ (kept _)]

theorem walk_eq (progress : Progress) (nodes : List Node) :
    progress.walk policy nodes = reading.read (progress.walk .warn nodes) := by
  induction nodes generalizing progress with
  | nil => exact (reading.read_pure _).symm
  | cons node nodes ih =>
    simp only [Progress.walk_cons, reading.read_bind, ← reading.step_eq, ← ih]

theorem renderUntrimmed_eq (template : Template) (context : Value) :
    template.renderUntrimmed context policy =
      reading.read (template.renderUntrimmed context .warn) := by
  have kept (declared bytes : Nat) :
      (Event.rendered template.name declared bytes).level ≠ .warn := by
    simp [Event.level]
  simp only [Template.renderUntrimmed, reading.walk_eq, reading.read_bind, reading.read_pure,
    reading.read_log _ (kept _ _)]

end Rereading

/-! ### Agreement -/

/-- **The three policies agree.** Under `warn` and `ignore` a render succeeds with the
same output, and the events under `ignore` are those under `warn` without the
warnings. Under `error` nothing differs from `warn` if there are no warnings;
otherwise the render fails at the first one, for its key and on its line, behind
the events before it. -/
theorem policies_agree (template : Template) (context : Value) (trimOutput : Bool) :
    (∃ output, (template.render context ⟨.warn, trimOutput⟩).result = .ok output ∧
      template.render context ⟨.ignore, trimOutput⟩ =
        ⟨(template.render context ⟨.warn, trimOutput⟩).events.filter
          (fun event => event.level != .warn), .ok output⟩) ∧
      ((∀ event ∈ (template.render context ⟨.warn, trimOutput⟩).events, event.level ≠ .warn) ∧
        template.render context ⟨.error, trimOutput⟩ =
          template.render context ⟨.warn, trimOutput⟩ ∨
      ∃ before key line later,
        (template.render context ⟨.warn, trimOutput⟩).events =
          before ++ .keyMissing key line :: later ∧
        (∀ event ∈ before, event.level ≠ .warn) ∧
        template.render context ⟨.error, trimOutput⟩ =
          ⟨before, .error ⟨.missingKey key line, template.name⟩⟩) := by
  obtain ⟨output, succeeds⟩ :=
    (onlyMissesKeys_renderUntrimmed .warn template context).exists_ok (by decide)
  have ignored := Rereading.quiet.renderUntrimmed_eq template context
  have refused := Rereading.strict.renderUntrimmed_eq template context
  simp only [Template.render_eq, ignored, refused]
  constructor
  · refine ⟨if trimOutput then Text.trimmed output else output, ?_, ?_⟩
    · rw [succeeds]
      rfl
    · simp only [Rereading.quiet, Logged.quiet, succeeds]
      rfl
  · rcases Logged.strict_cases (template.renderUntrimmed context .warn) with
      ⟨none, same⟩ | ⟨before, key, line, later, split, none, failed⟩
    · refine Or.inl ⟨none, ?_⟩
      simp only [Rereading.strict, same]
    · refine Or.inr ⟨before, key, line, later, split, none, ?_⟩
      simp only [Rereading.strict, failed]
      rfl

end Stencil
