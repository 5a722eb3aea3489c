import Stencil.Value.Path

/-!
Paths and what they lead to.

The segments of a path are the texts without dots whose join it is (`Path.join_segments`,
`Path.segments_join`). Only those that are not empty are steps, so dots at the ends and next
to other dots do not count (`Path.steps_spelled`), and a dot between two paths puts their
steps one behind the other (`Path.steps_append`).

What steps lead to is told by a relation that goes down one part after the other
(`Value.Descent`). Following steps finds the end of a descent and nothing else
(`Value.follow?_eq_some_iff`), and it may stop at any part and go on from there
(`Value.follow?_append`). That a path addresses a part, and nothing but a part, is read off
these (`Value.paths_address_parts`).
-/

namespace Stencil

/-- Cutting at a mark is splitting a list. -/
theorem Text.splitAt_eq_splitOn (mark : Char) (cs : List Char) :
    splitAt mark cs = cs.splitOn mark := by
  induction cs with
  | nil => rfl
  | cons c cs ih =>
    rw [splitAt, ih, List.splitOn_cons_eq_if_modifyHead]
    by_cases here : c = mark
    · simp [here]
    · cases split : cs.splitOn mark with
      | nil => exact absurd split (List.splitOn_ne_nil mark cs)
      | cons piece rest => simp [here]

/-- No piece has the mark. -/
theorem Text.not_mem_of_mem_splitAt {mark : Char} {cs piece : List Char}
    (member : piece ∈ splitAt mark cs) : mark ∉ piece := by
  induction cs generalizing piece with
  | nil =>
    obtain rfl : piece = [] := List.mem_singleton.mp member
    exact List.not_mem_nil
  | cons c cs ih =>
    rw [splitAt] at member
    by_cases here : c = mark
    · rw [if_pos here] at member
      rcases List.mem_cons.mp member with rfl | later
      · exact List.not_mem_nil
      · exact ih later
    · rw [if_neg here] at member
      cases split : splitAt mark cs with
      | nil =>
        rw [split] at member
        obtain rfl : piece = [c] := List.mem_singleton.mp member
        simpa using Ne.symm here
      | cons first rest =>
        rw [split] at member
        rcases List.mem_cons.mp member with rfl | later
        · have free : mark ∉ first := ih (by simp [split])
          simpa [free] using Ne.symm here
        · exact ih (by simp [split, later])

namespace Path

/-! ### Segments -/

/-- A text without dots, as a segment is. -/
def Dotless (segment : String) : Prop :=
  '.' ∉ segment.toList

theorem dotless_of_mem_segments {path segment : String} (member : segment ∈ segments path) :
    Dotless segment := by
  obtain ⟨piece, among, rfl⟩ := List.mem_map.mp member
  rw [Dotless, String.toList_ofList]
  exact Text.not_mem_of_mem_splitAt among

/-- A path is the join of its segments. -/
theorem join_segments (path : String) : ".".intercalate (segments path) = path := by
  have pieces : (segments path).map String.toList = path.toList.splitOn '.' := by
    simp [segments, Text.splitAt_eq_splitOn]
  apply String.toList_injective
  rw [String.toList_intercalate, pieces]
  exact List.intercalate_splitOn '.'

/-- Texts without dots are the segments of their join. -/
theorem segments_join {parts : List String} (dotless : ∀ part ∈ parts, Dotless part)
    (nonempty : parts ≠ []) : segments (".".intercalate parts) = parts := by
  have pieces : (".".intercalate parts).toList.splitOn '.' = parts.map String.toList := by
    rw [String.toList_intercalate]
    refine List.splitOn_intercalate '.' ?_ (by simpa using nonempty)
    intro piece member
    obtain ⟨part, among, rfl⟩ := List.mem_map.mp member
    exact dotless part among
  rw [segments, Text.splitAt_eq_splitOn, pieces]
  simp

/-- A dot between two paths puts their segments one behind the other. -/
theorem segments_append (p q : String) : segments (p ++ "." ++ q) = segments p ++ segments q := by
  have joined : (p ++ "." ++ q).toList = p.toList ++ '.' :: q.toList := by simp
  simp only [segments, Text.splitAt_eq_splitOn]
  rw [joined, List.splitOn_append_cons_self, List.map_append]

/-! ### Steps -/

/-- The steps of a path: the segments that are not empty. -/
def steps (path : String) : List String :=
  (segments path).filter (· ≠ "")

theorem steps_append (p q : String) : steps (p ++ "." ++ q) = steps p ++ steps q := by
  rw [steps, segments_append, List.filter_append, steps, steps]

@[simp] theorem steps_empty : steps "" = [] := by
  decide

theorem steps_of_dotless {step : String} (nonempty : step ≠ "") (dotless : Dotless step) :
    steps step = [step] := by
  have whole := segments_join (List.forall_mem_singleton.mpr dotless) (List.cons_ne_nil _ _)
  rw [String.intercalate_singleton] at whole
  simp [steps, whole, nonempty]

/-- A number of dots. -/
def dots (n : Nat) : String :=
  String.ofList (List.replicate n '.')

theorem dots_succ (n : Nat) : dots (n + 1) = "." ++ dots n := by
  apply String.toList_injective
  simp [dots, List.replicate_succ]

/-- Dots in front of a path do not count. -/
theorem steps_dots_append (n : Nat) (path : String) : steps (dots n ++ path) = steps path := by
  induction n with
  | zero => simp [dots]
  | succ n ih =>
    have split : dots (n + 1) ++ path = "" ++ "." ++ (dots n ++ path) := by
      rw [dots_succ, String.append_assoc, String.empty_append]
    rw [split, steps_append, ih, steps_empty, List.nil_append]

/-- Dots behind a path do not count. -/
theorem steps_append_dots (path : String) (n : Nat) : steps (path ++ dots n) = steps path := by
  cases n with
  | zero => simp [dots]
  | succ n =>
    have none : steps (dots n) = [] := by
      have dropped := steps_dots_append n ""
      rwa [String.append_empty, steps_empty] at dropped
    rw [dots_succ, ← String.append_assoc, steps_append, none, List.append_nil]

/-- The path that has these steps, each with a number of extra dots behind it. -/
def spelled : List (String × Nat) → String
  | [] => ""
  | [(step, extra)] => step ++ dots extra
  | (step, extra) :: next :: rest => step ++ "." ++ (dots extra ++ spelled (next :: rest))

example : dots 1 ++ spelled [("a", 2), ("0", 0)] = ".a...0" := by decide

/-- The steps of a spelled path are those it was spelled from. -/
theorem steps_spelled {parts : List (String × Nat)}
    (proper : ∀ part ∈ parts, part.1 ≠ "" ∧ Dotless part.1) :
    steps (spelled parts) = parts.map Prod.fst := by
  induction parts with
  | nil => exact steps_empty
  | cons part rest ih =>
    obtain ⟨step, extra⟩ := part
    obtain ⟨⟨nonempty, dotless⟩, behind⟩ := List.forall_mem_cons.mp proper
    have first : steps step = [step] := steps_of_dotless nonempty dotless
    cases rest with
    | nil => rw [spelled, steps_append_dots, first, List.map_cons, List.map_nil]
    | cons next rest =>
      rw [spelled, steps_append, steps_dots_append, first, ih behind]
      rfl

/-! ### Indices -/

/-- A segment that reads as an index: decimal digits, at least one, after a plus sign or
without. -/
inductive Denotes : String → Nat → Prop
  | plain {ds : List Char} (nonempty : ds ≠ []) (decimal : ∀ d ∈ ds, d.isDigit = true) :
      Denotes (String.ofList ds) (Digits.toNat ds)
  | signed {ds : List Char} (nonempty : ds ≠ []) (decimal : ∀ d ∈ ds, d.isDigit = true) :
      Denotes (String.ofList ('+' :: ds)) (Digits.toNat ds)

/-- Behind a plus sign an index is read as without one. -/
theorem index?_signed (cs : List Char) : index? (String.ofList ('+' :: cs)) =
    if cs ≠ [] ∧ cs.all Char.isDigit then some (Digits.toNat cs) else none := by
  rw [index?, String.toList_ofList]
  rfl

theorem index?_plain {cs : List Char} (plain : ∀ rest, cs ≠ '+' :: rest) :
    index? (String.ofList cs) =
      if cs ≠ [] ∧ cs.all Char.isDigit then some (Digits.toNat cs) else none := by
  rw [index?, String.toList_ofList]
  split
  · next rest => exact absurd rfl (plain rest)
  · rfl

/-- A segment has an index exactly when it denotes it. -/
theorem index?_eq_some_iff {segment : String} {index : Nat} :
    index? segment = some index ↔ Denotes segment index := by
  constructor
  · intro found
    obtain ⟨cs, rfl⟩ : ∃ cs, segment = String.ofList cs := ⟨_, String.ofList_toList.symm⟩
    by_cases signed : ∃ rest, cs = '+' :: rest
    · obtain ⟨ds, rfl⟩ := signed
      rw [index?_signed, Option.ite_none_right_eq_some] at found
      obtain ⟨⟨nonempty, decimal⟩, read⟩ := found
      obtain rfl := Option.some.inj read
      exact .signed nonempty (List.all_eq_true.mp decimal)
    · have plain : ∀ rest, cs ≠ '+' :: rest := fun rest same => signed ⟨rest, same⟩
      rw [index?_plain plain, Option.ite_none_right_eq_some] at found
      obtain ⟨⟨nonempty, decimal⟩, read⟩ := found
      obtain rfl := Option.some.inj read
      exact .plain nonempty (List.all_eq_true.mp decimal)
  · intro denotes
    cases denotes with
    | @plain ds nonempty decimal =>
      have unsigned : ∀ rest, ds ≠ '+' :: rest := by
        rintro rest rfl
        exact absurd (decimal '+' List.mem_cons_self) (by decide)
      rw [index?_plain unsigned, if_pos ⟨nonempty, List.all_eq_true.mpr decimal⟩]
    | signed nonempty decimal =>
      rw [index?_signed, if_pos ⟨nonempty, List.all_eq_true.mpr decimal⟩]

/-- The decimal form of a number denotes it. -/
theorem denotes_ofNat (index : Nat) : Denotes (String.ofList (Digits.ofNat index)) index := by
  have denoted : Denotes (String.ofList (Digits.ofNat index)) (Digits.toNat (Digits.ofNat index)) :=
    .plain (Digits.ofNat_ne_nil index) fun _ => Digits.isDigit_of_mem_ofNat
  rwa [Digits.toNat_ofNat] at denoted

end Path

namespace Value

/-! ### Steps down -/

/-- A segment leads from a value to a part of it: as a key to a field of an object, and as
an index in range to an item of an array. -/
inductive LeadsTo : Value → String → Value → Prop
  | field {fields : List (String × Value)} {key : String} {part : Value}
      (held : fields.lookup key = some part) : LeadsTo (.object fields) key part
  | item {items : List Value} {segment : String} {index : Nat} {part : Value}
      (denotes : Path.Denotes segment index) (held : items[index]? = some part) :
      LeadsTo (.array items) segment part

/-- A step down as a path writes it: a key that is not empty and has no dots, or an index
in decimal. -/
inductive Step : Value → String → Value → Prop
  | field {fields : List (String × Value)} {key : String} {part : Value} (nonempty : key ≠ "")
      (dotless : Path.Dotless key) (held : fields.lookup key = some part) :
      Step (.object fields) key part
  | item {items : List Value} {index : Nat} {part : Value} (held : items[index]? = some part) :
      Step (.array items) (String.ofList (Digits.ofNat index)) part

/-- A descent: steps down, one after the other, and the value at their end. -/
inductive Descent (step : Value → String → Value → Prop) :
    Value → List String → Value → Prop
  | nil {value : Value} : Descent step value [] value
  | cons {value part reached : Value} {segment : String} {rest : List String}
      (first : step value segment part) (behind : Descent step part rest reached) :
      Descent step value (segment :: rest) reached

theorem Descent.mono {weak strong : Value → String → Value → Prop}
    (implies : ∀ {value segment part}, strong value segment part → weak value segment part)
    {value reached : Value} {segments : List String}
    (descent : Descent strong value segments reached) : Descent weak value segments reached := by
  induction descent with
  | nil => exact .nil
  | cons first _ ih => exact .cons (implies first) ih

theorem Step.leadsTo {value part : Value} {segment : String} (step : Step value segment part) :
    LeadsTo value segment part := by
  cases step with
  | field _ _ held => exact .field held
  | item held => exact .item (Path.denotes_ofNat _) held

/-- A step is written as a segment that counts. -/
theorem Step.proper {value part : Value} {segment : String} (step : Step value segment part) :
    segment ≠ "" ∧ Path.Dotless segment := by
  cases step with
  | field nonempty dotless _ => exact ⟨nonempty, dotless⟩
  | @item _ index _ _ =>
    constructor
    · intro empty
      have none : Digits.ofNat index = [] := by simpa using empty
      exact Digits.ofNat_ne_nil index none
    · intro dot
      rw [String.toList_ofList] at dot
      have digit := Digits.isDigit_of_mem_ofNat dot
      exact absurd digit (by decide)

theorem Descent.proper {value reached : Value} {segments : List String}
    (descent : Descent Step value segments reached) :
    ∀ segment ∈ segments, segment ≠ "" ∧ Path.Dotless segment := by
  induction descent with
  | nil => exact fun _ member => absurd member List.not_mem_nil
  | cons first _ ih => exact List.forall_mem_cons.mpr ⟨first.proper, ih⟩

/-! ### Following steps -/

theorem child?_eq_some_iff {value part : Value} {segment : String} :
    value.child? segment = some part ↔ LeadsTo value segment part := by
  constructor
  · intro found
    cases value with
    | object fields => exact .field found
    | array items =>
      obtain ⟨index, read, held⟩ := Option.bind_eq_some_iff.mp found
      exact .item (Path.index?_eq_some_iff.mp read) held
    | null | bool | number | string => cases found
  · intro leads
    cases leads with
    | field held => exact held
    | item denotes held => rw [child?, Path.index?_eq_some_iff.mpr denotes, Option.bind_some, held]

/-- Following steps finds the end of a descent, and nothing else. -/
theorem follow?_eq_some_iff {value reached : Value} {steps : List String} :
    value.follow? steps = some reached ↔ Descent LeadsTo value steps reached := by
  induction steps generalizing value with
  | nil =>
    constructor
    · intro found
      obtain rfl := Option.some.inj found
      exact .nil
    · intro descent
      cases descent
      rfl
  | cons segment rest ih =>
    rw [follow?, Option.bind_eq_some_iff]
    constructor
    · rintro ⟨part, first, behind⟩
      exact .cons (child?_eq_some_iff.mp first) (ih.mp behind)
    · intro descent
      cases descent with
      | cons first behind => exact ⟨_, child?_eq_some_iff.mpr first, ih.mpr behind⟩

/-- One may stop at any part and follow the remaining steps from there. -/
theorem follow?_append (value : Value) (before after : List String) :
    value.follow? (before ++ after) =
      (value.follow? before).bind fun part => part.follow? after := by
  induction before generalizing value with
  | nil => rfl
  | cons segment rest ih =>
    rw [List.cons_append, follow?, follow?, Option.bind_assoc]
    exact Option.bind_congr fun part _ => ih part

/-! ### Paths -/

theorem resolveSegments?_eq (context : Value) (segments : List String) :
    context.resolveSegments? segments =
      if segments.filter (· ≠ "") = [] then none
      else context.follow? (segments.filter (· ≠ "")) := by
  rw [resolveSegments?]
  split
  · next none => rw [if_pos none]
  · next some => rw [if_neg some]

/-- A path is resolved by following its steps, if it has any. -/
theorem resolve?_eq (context : Value) (path : String) :
    context.resolve? path =
      if Path.steps path = [] then none else context.follow? (Path.steps path) := by
  rw [resolve?, resolveSegments?_eq, Path.steps]

theorem resolve?_of_steps {path : String} (some : Path.steps path ≠ []) (context : Value) :
    context.resolve? path = context.follow? (Path.steps path) := by
  rw [resolve?_eq, if_neg some]

theorem resolve?_of_no_steps {path : String} (none : Path.steps path = []) (context : Value) :
    context.resolve? path = Option.none := by
  rw [resolve?_eq, if_pos none]

/-- A path leads to the end of the descent of its steps, and nowhere else. -/
theorem resolve?_eq_some_iff {context reached : Value} {path : String} :
    context.resolve? path = some reached ↔
      Path.steps path ≠ [] ∧ Descent LeadsTo context (Path.steps path) reached := by
  rw [resolve?_eq, Option.ite_none_left_eq_some, follow?_eq_some_iff]

/-- The end of a descent of steps is found at every path that spells them. -/
theorem resolve?_spelled {context reached : Value} {parts : List (String × Nat)}
    (nonempty : parts ≠ []) (descent : Descent Step context (parts.map Prod.fst) reached)
    (before : Nat) :
    context.resolve? (Path.dots before ++ Path.spelled parts) = some reached := by
  have proper : ∀ part ∈ parts, part.1 ≠ "" ∧ Path.Dotless part.1 := fun part member =>
    descent.proper part.1 (List.mem_map_of_mem member)
  rw [resolve?_eq_some_iff, Path.steps_dots_append, Path.steps_spelled proper]
  exact ⟨by simpa using nonempty, descent.mono Step.leadsTo⟩

/-- A dot between two paths that have steps goes on from where the first one leads. -/
theorem resolve?_append {p q : String} (some : Path.steps p ≠ []) (some' : Path.steps q ≠ [])
    (context : Value) :
    context.resolve? (p ++ "." ++ q) = (context.resolve? p).bind fun part => part.resolve? q := by
  have joined : Path.steps (p ++ "." ++ q) ≠ [] := by
    rw [Path.steps_append]
    exact List.append_ne_nil_of_left_ne_nil some _
  rw [resolve?_of_steps joined, Path.steps_append, follow?_append, resolve?_of_steps some]
  exact Option.bind_congr fun part _ => (resolve?_of_steps some' part).symm

/-- Segments without dots may be joined and resolved as a path. -/
theorem resolveSegments?_of_dotless {parts : List String}
    (dotless : ∀ part ∈ parts, Path.Dotless part) (context : Value) :
    context.resolveSegments? parts = context.resolve? (".".intercalate parts) := by
  cases parts with
  | nil => rfl
  | cons first rest =>
    rw [resolve?, Path.segments_join dotless (List.cons_ne_nil first rest)]

/-- **Paths address the parts of a value, and compose.** The end of every descent of steps,
there being one, is what a path resolves to that spells the steps, with any number of extra
dots before, between and behind them. Conversely, whatever a path resolves to is the end of a
descent along all its segments that are not empty, the segments being the texts without dots
whose join is the path. A dot between two paths that have such segments resolves the second one
in what the first one resolves to; a path without them resolves to nothing; and segments
without dots resolve as their join does. -/
theorem paths_address_parts (context : Value) :
    (∀ (reached : Value) (before : Nat) (parts : List (String × Nat)), parts ≠ [] →
      Descent Step context (parts.map Prod.fst) reached →
      context.resolve? (Path.dots before ++ Path.spelled parts) = some reached) ∧
    (∀ path : String,
      ".".intercalate (Path.segments path) = path ∧
      (∀ segment ∈ Path.segments path, Path.Dotless segment) ∧
      ∀ reached : Value, context.resolve? path = some reached ↔
        Path.steps path ≠ [] ∧ Descent LeadsTo context (Path.steps path) reached) ∧
    (∀ p q : String, Path.steps p ≠ [] → Path.steps q ≠ [] →
      context.resolve? (p ++ "." ++ q) =
        (context.resolve? p).bind fun part => part.resolve? q) ∧
    (∀ path : String, Path.steps path = [] → context.resolve? path = none) ∧
    ∀ parts : List String, (∀ part ∈ parts, Path.Dotless part) →
      context.resolveSegments? parts = context.resolve? (".".intercalate parts) := by
  refine ⟨?descents, ?converse, ?append, ?stepless, ?segments⟩
  case descents =>
    intro reached before parts nonempty descent
    exact resolve?_spelled nonempty descent before
  case converse =>
    intro path
    exact ⟨Path.join_segments path, fun _ => Path.dotless_of_mem_segments, fun _ =>
      resolve?_eq_some_iff⟩
  case append =>
    intro p q some some'
    exact resolve?_append some some' context
  case stepless =>
    intro path none
    exact resolve?_of_no_steps none context
  case segments =>
    intro parts dotless
    exact resolveSegments?_of_dotless dotless context

end Value

end Stencil
