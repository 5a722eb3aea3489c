import Stencil.Value.Basic

/-!
Log events, and computations that log.

Compiling and rendering report what they do as events. A `Logged` computation
yields its events in order together with its result; the events that came before
a failure are kept. Its laws are those of a monad, so computations may be
regrouped freely.
-/

namespace Stencil

/-! ### Events -/

/-- The severity of an event. -/
inductive Level where
  | trace
  | debug
  | warn
  deriving DecidableEq, Repr

/-- The name of a level. -/
def Level.name : Level → String
  | .trace => "TRACE"
  | .debug => "DEBUG"
  | .warn => "WARN"

/-- Something that compiling or rendering reports. -/
inductive Event where
  | compiled (name : Option String) (nodes : Nat)
  /-- A chain is opened; `depth` chains were open before. -/
  | ifOpened (condition : Bool) (line depth : Nat)
  /-- An `@elseif` is reached; `active` tells whether its arm is the chosen one. -/
  | elseIfReached (active : Bool) (line : Nat)
  | elseReached (active : Bool) (line : Nat)
  /-- A chain is closed; `depth` chains are still open. -/
  | chainClosed (line depth : Nat)
  | keyMissing (key : String) (line : Nat)
  /-- The size is that of the output before it is trimmed. -/
  | rendered (name : Option String) (declared bytes : Nat)
  deriving DecidableEq

namespace Event

def level : Event → Level
  | .compiled _ _ | .rendered _ _ _ => .debug
  | .keyMissing _ _ => .warn
  | _ => .trace

def message : Event → String
  | .compiled _ _ => "compiled template"
  | .ifOpened _ _ _ => "@if"
  | .elseIfReached _ _ => "@elseif"
  | .elseReached _ _ => "@else"
  | .chainClosed _ _ => "@endif"
  | .keyMissing _ _ => "no value for interpolation key"
  | .rendered _ _ _ => "rendered template"

/-- How a template without a name is called. -/
def nameField (name : Option String) : String × Value :=
  ("name", .string (name.getD "<inline>"))

def countField (field : String) (n : Nat) : String × Value :=
  (field, .number (.int n))

/-- The named values of an event. -/
def fields : Event → List (String × Value)
  | .compiled name nodes => [nameField name, countField "nodes" nodes]
  | .ifOpened condition line depth =>
    [("condition", .bool condition), countField "line" line, countField "depth" depth]
  | .elseIfReached active line => [("active", .bool active), countField "line" line]
  | .elseReached active line => [("active", .bool active), countField "line" line]
  | .chainClosed line depth => [countField "line" line, countField "depth" depth]
  | .keyMissing key line => [("key", .string key), countField "line" line]
  | .rendered name declared bytes =>
    [nameField name, countField "variables" declared, countField "bytes" bytes]

end Event

/-! ### Results that depend on results -/

section Results

variable {ε α β : Type}

/-- Steps in sequence succeed only if each of them does. -/
theorem exists_of_bind_eq_ok {first : Except ε α} {next : α → Except ε β} {value : β}
    (succeeds : first.bind next = .ok value) :
    ∃ between, first = .ok between ∧ next between = .ok value := by
  cases first with
  | error error => cases succeeds
  | ok between => exact ⟨between, rfl, succeeds⟩

theorem exists_of_map_eq_ok {first : Except ε α} {f : α → β} {value : β}
    (succeeds : first.map f = .ok value) : ∃ before, first = .ok before ∧ f before = value := by
  cases first with
  | error error => cases succeeds
  | ok before => exact ⟨before, rfl, Except.ok.inj succeeds⟩

end Results

/-! ### Computations that log -/

/-- The events of a computation, and what it comes to. -/
structure Logged (ε α : Type) where
  events : List Event
  result : Except ε α

namespace Logged

variable {ε ε' α β : Type}

/-- Reports an event. -/
def log (event : Event) : Logged ε Unit :=
  ⟨[event], .ok ()⟩

/-- A computation that fails. -/
def fail (error : ε) : Logged ε α :=
  ⟨[], .error error⟩

/-- A result without events. -/
def ofExcept (result : Except ε α) : Logged ε α :=
  ⟨[], result⟩

/-- The first computation, and unless it fails the one that follows from its
result. -/
def andThen (first : Logged ε α) (next : α → Logged ε β) : Logged ε β :=
  match first.result with
  | .ok value => ⟨first.events ++ (next value).events, (next value).result⟩
  | .error error => ⟨first.events, .error error⟩

instance : Monad (Logged ε) where
  pure value := ⟨[], .ok value⟩
  bind := andThen

instance : LawfulMonad (Logged ε) := by
  refine LawfulMonad.mk' _ (fun x => ?_) (fun _ _ => rfl) (fun x f g => ?_)
  · obtain ⟨events, result⟩ := x
    cases result <;> simp [Functor.map, andThen]
  · obtain ⟨events, result⟩ := x
    cases result with
    | error error => rfl
    | ok value =>
      simp only [bind, andThen]
      cases (f value).result <;> simp [List.append_assoc]

/-- Changes the error of a failure. -/
def mapError (change : ε → ε') (computation : Logged ε α) : Logged ε' α :=
  ⟨computation.events, computation.result.mapError change⟩

/-! ### Results and events of steps in sequence -/

@[simp] theorem result_pure (value : α) : (pure value : Logged ε α).result = .ok value :=
  rfl

/-- The result does not depend on events. -/
@[simp] theorem result_bind (first : Logged ε α) (next : α → Logged ε β) :
    (first >>= next).result = first.result.bind fun value => (next value).result := by
  obtain ⟨events, result⟩ := first
  cases result <;> rfl

theorem bind_of_ok {first : Logged ε α} {value : α} (h : first.result = .ok value)
    (next : α → Logged ε β) :
    first >>= next = ⟨first.events ++ (next value).events, (next value).result⟩ := by
  simp only [bind, andThen, h]

end Logged

end Stencil
