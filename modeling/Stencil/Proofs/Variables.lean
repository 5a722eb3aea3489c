import Mathlib.Data.List.Dedup
import Stencil.Proofs.Block.Meaning
import Stencil.Proofs.Conditions.Declared
import Stencil.Proofs.Markers.Runs

/-!
Declared variables, read back.

A declaration that fits on a line is read as it was written, its value trimmed
(`Declaration.reads_source`); a name without blanks and braces is the key of a marker, whatever
else it is made of (`Declaration.segments_marker`). Walking over declarations does nothing but
declare (`Progress.walk_declared`), each name has what was declared for it last
(`Declaration.find?_behind`), and as many names have a value as are different
(`Declaration.size_behind`). So a source of declarations and one marker renders to the text
that was declared last for the key (`declared_variables_read_back`).
-/

namespace Stencil

/-! ### Counting names -/

namespace Bindings

variable {α : Type} (bindings : Bindings α)

/-- The names that have a value. -/
def names : List String :=
  bindings.entries.map Prod.fst

theorem nodup_names : bindings.names.Nodup :=
  List.pairwise_map.mpr bindings.distinct

theorem mem_names_iff {name : String} :
    name ∈ bindings.names ↔ (bindings.find? name).isSome = true := by
  rw [find?, List.lookup_isSome_iff, names, List.mem_map]
  constructor
  · rintro ⟨entry, member, rfl⟩
    exact ⟨entry, member, beq_self_eq_true _⟩
  · rintro ⟨entry, member, same⟩
    exact ⟨entry, member, (beq_iff_eq.mp same).symm⟩

/-- The size is the number of different names. -/
theorem size_eq_length_dedup {names : List String}
    (same : ∀ name, (bindings.find? name).isSome = true ↔ name ∈ names) :
    bindings.size = names.dedup.length := by
  have among : ∀ name, name ∈ bindings.names ↔ name ∈ names.dedup := by
    intro name
    rw [mem_names_iff, same, List.mem_dedup]
  have perm := (List.perm_ext_iff_of_nodup bindings.nodup_names names.nodup_dedup).mpr among
  have counted : bindings.names.length = bindings.size := List.length_map Prod.fst
  rw [← counted, perm.length_eq]

end Bindings

/-! ### Declarations on lines -/

/-- Blanks around a numeral do not count, so trimming a text keeps its number. -/
theorem FiniteDouble.ofText?_trimmed (text : String) :
    ofText? (Text.trimmed text) = ofText? text := by
  rw [ofText?, ofText?, Text.trimmed, String.toList_ofList, Text.trim_trim]

/-- A declaration that fits on a line, of a name that fits into a marker: one word without
braces, and a value without newlines. -/
structure Declaration where
  name : String
  value : String
  nonempty : name ≠ ""
  oneWord : ∀ c ∈ name.toList, Text.isBlank c = false
  notOpened : '{' ∉ name.toList
  notClosed : '}' ∉ name.toList
  oneLine : '\n' ∉ value.toList

namespace Declaration

/-- The value as text: the shortest decimal of its number if it is the text of a finite
number, and otherwise its own text, trimmed. -/
def text (declaration : Declaration) : String :=
  match FiniteDouble.ofText? declaration.value with
  | some number => Layout.plain.write number
  | none => Text.trimmed declaration.value

/-- What the variable is bound to. -/
def scalar (declaration : Declaration) : Scalar :=
  .parse (Text.trimmed declaration.value)

/-- The node of the declaration. -/
def kind (declaration : Declaration) : Node.Kind :=
  .declare declaration.name declaration.scalar

theorem display_scalar (declaration : Declaration) :
    declaration.scalar.display = declaration.text := by
  rw [scalar, Scalar.parse, FiniteDouble.ofText?_trimmed, text]
  cases FiniteDouble.ofText? declaration.value <;> rfl

/-- The last declaration of a name. -/
def last? (declared : List Declaration) (name : String) : Option Declaration :=
  declared.reverse.find? fun declaration => name == declaration.name

theorem isSome_last?_iff {declared : List Declaration} {name : String} :
    (last? declared name).isSome = true ↔ name ∈ declared.map Declaration.name := by
  rw [last?, List.find?_isSome, List.mem_map]
  constructor
  · rintro ⟨declaration, member, same⟩
    exact ⟨declaration, List.mem_reverse.mp member, (beq_iff_eq.mp same).symm⟩
  · rintro ⟨declaration, member, rfl⟩
    exact ⟨declaration, List.mem_reverse.mpr member, beq_self_eq_true _⟩

theorem name_of_last? {declared : List Declaration} {name : String} {last : Declaration}
    (found : last? declared name = some last) : last.name = name := by
  rw [last?] at found
  have same := List.find?_some found
  exact (beq_iff_eq.mp same).symm

/-- The name in a marker. -/
def marker (name : String) : String :=
  "\x7b\x7b " ++ name ++ " \x7d\x7d"

/-- A line for each declaration, and then a name in a marker. -/
def source (declared : List Declaration) (name : String) : String :=
  declared.foldr (fun declaration rest => Source.varLine declaration.name declaration.value ++ rest)
    (marker name)

theorem toList_marker (name : String) :
    (marker name).toList = Marker.written ([' '] ++ name.toList ++ [' ']) := by
  have opening : "\x7b\x7b ".toList = ['{', '{', ' '] := rfl
  have closing : " \x7d\x7d".toList = [' ', '}', '}'] := rfl
  simp [marker, Marker.written, opening, closing]

/-- The name in the marker is the key, be there backslashes in it or an `@`. -/
theorem segments_marker (declaration : Declaration) :
    Marker.segments (marker declaration.name).toList = [.key declaration.name] := by
  have trimmed : Text.trim ([' '] ++ declaration.name.toList ++ [' ']) = declaration.name.toList :=
    Text.trim_between Text.isBlank_of_mem_space Text.isBlank_of_mem_space
      (Text.trimmed_of_visible declaration.oneWord)
  have notOpened : '{' ∉ [' '] ++ declaration.name.toList ++ [' '] := by
    simp [declaration.notOpened]
  have notClosed : '}' ∉ [' '] ++ declaration.name.toList ++ [' '] := by
    simp [declaration.notClosed]
  have starts := Marker.startsWithMarker_written notOpened notClosed []
  rw [List.append_nil] at starts
  have visible : Text.trim ([' '] ++ declaration.name.toList ++ [' ']) ≠ [] := by
    rw [trimmed]
    intro none
    exact declaration.nonempty (String.toList_eq_nil_iff.mp none)
  have key := Marker.Segmented.key starts visible .nil
  rw [toList_marker, ← key.eq_segments, trimmed, String.ofList_toList]

/-- The declarations and the marker are read as they were written. -/
theorem reads_source (declared : List Declaration) {name : String}
    (notClosed : '}' ∉ name.toList) :
    Source.Reads (Source.pieces (source declared name).toList)
      (declared.map kind ++ [.text (marker name)]) := by
  induction declared with
  | nil =>
    have few : ([' '] ++ name.toList ++ [' ']).count '}' ≤ 1 := by
      simp [List.count_eq_zero.mpr notClosed]
    have run := Source.pieces_written few
    rw [← toList_marker] at run
    have whole : source [] name = marker name := rfl
    have read : Source.Reads [⟨.run, (marker name).toList⟩]
        [.text (String.ofList (marker name).toList)] := .run .nil
    rw [String.ofList_toList] at read
    rw [whole, run]
    exact read
  | cons declaration rest ih =>
    exact Source.reads_varLine declaration.nonempty declaration.oneWord declaration.oneLine ih

/-! ### Scopes behind declarations -/

theorem declaration?_of_kind {declaration : Declaration} {node : Node}
    (same : node.kind = declaration.kind) :
    node.declaration? = some (declaration.name, declaration.scalar) := by
  simp only [Node.declaration?, same, kind]

theorem declarations_of_kinds {declared : List Declaration} {nodes : List Node}
    (kinds : nodes.map Node.kind = declared.map kind) :
    declarations nodes =
      declared.map fun declaration => (declaration.name, declaration.scalar) := by
  induction declared generalizing nodes with
  | nil => rw [List.map_eq_nil_iff.mp kinds]; rfl
  | cons declaration rest ih =>
    obtain ⟨node, later, rfl, first, kinds⟩ := List.map_eq_cons_iff.mp kinds
    rw [declarations, List.filterMap_cons_some (declaration?_of_kind first), ← declarations,
      ih kinds, List.map_cons]

/-- The value that is looked up in declarations is that of the one found first. -/
theorem lookup_map (declared : List Declaration) (name : String) :
    (declared.map fun declaration => (declaration.name, declaration.scalar)).lookup name =
      (declared.find? fun declaration => name == declaration.name).map scalar := by
  induction declared with
  | nil => rfl
  | cons declaration rest ih =>
    rw [List.map_cons, List.lookup_cons, List.find?_cons, ih]
    cases name == declaration.name <;> rfl

/-- Behind declarations each name has what was declared for it last, and no other name has a
value. -/
theorem find?_behind {declared : List Declaration} {nodes : List Node}
    (kinds : nodes.map Node.kind = declared.map kind) (context : Value) (name : String) :
    (Scope.behind ⟨context, ∅⟩ nodes).declared.find? name =
      (last? declared name).map scalar := by
  rw [Scope.find?_behind, declarations_of_kinds kinds, ← List.map_reverse, lookup_map, last?,
    Bindings.find?_empty, Option.or_none]

theorem size_behind {declared : List Declaration} {nodes : List Node}
    (kinds : nodes.map Node.kind = declared.map kind) (context : Value) :
    (Scope.behind ⟨context, ∅⟩ nodes).declared.size =
      (declared.map Declaration.name).dedup.length := by
  apply Bindings.size_eq_length_dedup
  intro name
  rw [find?_behind kinds, Option.isSome_map, isSome_last?_iff]

end Declaration

/-! ### Renders -/

/-- Walking over declarations declares, and does nothing else. -/
theorem Progress.walk_declared (policy : MissingKeys) (progress : Progress)
    {declared : List Declaration} {nodes : List Node}
    (kinds : nodes.map Node.kind = declared.map Declaration.kind) :
    progress.walk policy nodes =
      pure { progress with scope := progress.scope.behind nodes } := by
  induction declared generalizing progress nodes with
  | nil =>
    rw [List.map_eq_nil_iff.mp kinds]
    rfl
  | cons declaration rest ih =>
    obtain ⟨node, later, rfl, first, kinds⟩ := List.map_eq_cons_iff.mp kinds
    have stepped : progress.step policy node =
        pure { progress with
          scope := progress.scope.declare declaration.name declaration.scalar } := by
      simp only [step, first, Declaration.kind]
    have behind : progress.scope.behind (node :: later) =
        (progress.scope.declare declaration.name declaration.scalar).behind later := by
      have told := Declaration.declaration?_of_kind first
      simp only [Scope.behind, declarations, List.filterMap_cons_some told, List.foldl_cons]
    rw [walk_cons, stepped, pure_bind, ih _ kinds, behind]

/-- Declarations and a text need no chain. -/
theorem Declaration.check_of_kinds {declared : List Declaration} {text : String}
    {nodes : List Node} (kinds : nodes.map Node.kind = declared.map kind ++ [.text text]) :
    Balance.check nodes = .ok () := by
  apply Balance.check_of_flat
  intro node member
  have among : node.kind ∈ declared.map kind ++ [.text text] := by
    rw [← kinds]
    exact List.mem_map_of_mem member
  rcases List.mem_append.mp among with declares | writes
  · obtain ⟨declaration, _, same⟩ := List.mem_map.mp declares
    simp only [Balance.step, ← same, kind]
  · simp only [Balance.step, List.mem_singleton.mp writes]

/-- Where text is shown, a marker writes the value of its name. -/
theorem Progress.walk_marker (policy : MissingKeys) {progress : Progress}
    (active : progress.chains.isActive = true) {declaration : Declaration} {node : Node}
    (same : node.kind = .text (Declaration.marker declaration.name))
    (held : progress.scope.declared.find? declaration.name = some declaration.scalar) :
    progress.walk policy [node] =
      pure { progress with output := progress.output ++ declaration.text } := by
  have shown : progress.scope.display? declaration.name = some declaration.text := by
    rw [Scope.display?_of_declared held, declaration.display_scalar]
  have filled : Marker.fill policy progress.scope node.line (Declaration.marker declaration.name) =
      pure declaration.text := by
    simp [Marker.fill, declaration.segments_marker, Marker.fillSegments, Marker.Segment.fill, shown]
  rw [walk_cons]
  simp only [step, same, Progress.text, active, if_true, filled, pure_bind, walk_nil]

/-- **Declared variables read back as declared.** Let each declaration stand on a line of its
own, and behind them a declared name in a marker. The source compiles, and whatever the context
and the policy, its untrimmed render is the text of the last declaration of the name: the
shortest decimal of its value if that is the text of a finite number, and the trimmed value
otherwise. All that is reported is that it has rendered, with as many variables as there are
different names. -/
theorem declared_variables_read_back {declared : List Declaration} {name : String}
    (isDeclared : name ∈ declared.map Declaration.name) (title : Option String) :
    ∃ last template, Declaration.last? declared name = some last ∧
      Template.ofSource title (Declaration.source declared name) = .ok template ∧
      ∀ context policy, template.render context ⟨policy, false⟩ =
        ⟨[.rendered title (declared.map Declaration.name).dedup.length last.text.utf8ByteSize],
          .ok last.text⟩ := by
  obtain ⟨last, found⟩ := Option.isSome_iff_exists.mp (Declaration.isSome_last?_iff.mpr isDeclared)
  obtain rfl := Declaration.name_of_last? found
  have reads := Declaration.reads_source declared last.notClosed
  obtain ⟨nodes, scanned, kinds⟩ := reads.exists_result 1
  have balanced := Declaration.check_of_kinds kinds
  obtain ⟨front, back, rfl, kindsFront, kindsBack⟩ := List.map_eq_append_iff.mp kinds
  obtain ⟨node, none, rfl, same, empty⟩ := List.map_eq_cons_iff.mp kindsBack
  obtain rfl := List.map_eq_nil_iff.mp empty
  let template : Template := ⟨title, _, _, scanned, balanced⟩
  refine ⟨last, template, found, template.ofSource_source, ?_⟩
  intro context policy
  have held : (Scope.behind ⟨context, ∅⟩ front).declared.find? last.name = some last.scalar := by
    rw [Declaration.find?_behind kindsFront, found, Option.map_some]
  have declares := (Progress.start context).walk_declared policy kindsFront
  have walked : (Progress.start context).walk policy template.nodes =
      pure ⟨Scope.behind ⟨context, ∅⟩ front, .none, "" ++ last.text⟩ := by
    rw [Progress.walk_append, declares, pure_bind]
    exact Progress.walk_marker policy rfl same held
  have rendered := Template.render_of_quiet_walk walked
  rwa [Declaration.size_behind kindsFront, String.empty_append] at rendered

/-- A name that ends in a backslash is declared as a text and then as a number, and between
them an empty value is declared. -/
theorem declared_variables_read_back_overwritten :
    ∃ declared : List Declaration,
      Declaration.source declared "a\\" =
        "@var a\\ x\n@var @b \n@var a\\  5. \n\x7b\x7b a\\ \x7d\x7d" ∧
      "a\\" ∈ declared.map Declaration.name ∧
      ∃ template,
        Template.ofSource none
          "@var a\\ x\n@var @b \n@var a\\  5. \n\x7b\x7b a\\ \x7d\x7d" = .ok template ∧
        ∀ context policy, template.render context ⟨policy, false⟩ =
          ⟨[.rendered none 2 1], .ok "5"⟩ := by
  let first : Declaration := ⟨"a\\", "x", by decide,
    List.forall_mem_cons.mpr ⟨by decide, List.forall_mem_singleton.mpr (by decide)⟩,
    by decide, by decide, by decide⟩
  let other : Declaration := ⟨"@b", "", by decide,
    List.forall_mem_cons.mpr ⟨by decide, List.forall_mem_singleton.mpr (by decide)⟩,
    by decide, by decide, by decide⟩
  let last : Declaration := { first with value := " 5. ", oneLine := by decide }
  have isDeclared : "a\\" ∈ [first, other, last].map Declaration.name := List.mem_cons_self
  obtain ⟨found, template, isLast, compiled, rendered⟩ :=
    declared_variables_read_back isDeclared none
  obtain rfl : last = found := Option.some.inj isLast
  have text : last.text = "5" := by decide +kernel
  have count : ([first, other, last].map Declaration.name).dedup.length = 2 := by decide
  rw [text, count] at rendered
  exact ⟨[first, other, last], rfl, isDeclared, template, compiled, rendered⟩

end Stencil
