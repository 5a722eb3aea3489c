import Stencil.Catalog
import Stencil.Proofs.Walk

/-!
Histories of a catalog.

A name is of no consequence to compiling (`Template.ofSource_eq_map`) and shows in
nothing but the error of a render (`Template.result_render_rename`), so what was added
under a name renders like its source. A request changes a catalog only if it adds a
source that compiles, and then only at the name that it adds (`Catalog.behind_cases`).
Behind any requests, then, a name has the last source for it that compiled
(`Catalog.get?_behindAll`), and a source that does not compile leaves no trace
(`Catalog.serves_last_added`).
-/

namespace Stencil

/-! ### Templates and their names -/

namespace Template

/-- The template under another name, or under none. -/
def rename (template : Template) (name : Option String) : Template :=
  { template with name }

/-- What a source compiles to does not depend on the name. -/
theorem ofSource_eq_map (name : Option String) (source : String) :
    ofSource name source = (ofSource none source).map (rename · name) := by
  unfold ofSource
  split
  · rfl
  · split <;> rfl

/-- A source compiles to the template that has the source. -/
theorem ofSource_eq_ok_iff {name : Option String} {source : String} {template : Template} :
    ofSource name source = .ok template ↔ template.name = name ∧ template.source = source := by
  constructor
  · intro made
    unfold ofSource at made
    split at made
    · cases made
    · split at made
      · cases made
      · cases made
        exact ⟨rfl, rfl⟩
  · rintro ⟨rfl, rfl⟩
    exact template.ofSource_source

/-- The source makes a template. -/
def Compiles (source : String) : Prop :=
  ∃ template, ofSource none source = .ok template

/-- A named template fails where the nameless one does, under its name. -/
theorem result_render_rename (template : Template) (name : String) (context : Value)
    (options : Options) :
    ((template.rename (some name)).render context options).result =
      ((template.rename none).render context options).result.mapError
        (·.inTemplate name) := by
  have same : ((template.rename (some name)).renderUntrimmed context options.missingKeys).result =
      ((template.rename none).renderUntrimmed context options.missingKeys).result := by
    rw [result_renderUntrimmed_eq_walk, result_renderUntrimmed_eq_walk]
    rfl
  rw [result_render, result_render, same]
  cases ((template.rename none).renderUntrimmed context options.missingKeys).result <;> rfl

theorem result_compile (name : Option String) (source : String) :
    (compile name source).result = (ofSource name source).mapError (⟨·, name⟩) := by
  simp only [compile, TemplateError.locate_fault, Logged.result_bind, Logged.mapError,
    Logged.ofExcept]
  cases ofSource name source <;> rfl

end Template

/-! ### Requests and answers -/

namespace Catalog

/-- What a catalog can be asked. -/
inductive Request where
  | add (name source : String)
  | has (name : String)
  | get (name : String)
  | render (name : String) (context : Value)
  | renderInline (source : String) (context : Value)
  | options

/-- What a catalog answers. -/
inductive Answer where
  | added (outcome : Logged TemplateError Unit)
  | has (found : Bool)
  | got (template? : Option Template)
  | rendered (output : Logged TemplateError String)
  | options (options : Options)

/-- The answer to a request. -/
def answer (catalog : Catalog) : Request → Answer
  | .add name source => .added ((fun _ => ()) <$> catalog.add name source)
  | .has name => .has (catalog.has name)
  | .get name => .got (catalog.get? name)
  | .render name context => .rendered (catalog.render name context)
  | .renderInline source context => .rendered (catalog.renderInline source context)
  | .options => .options catalog.options

/-- The catalog behind a request. -/
def behind (catalog : Catalog) : Request → Catalog
  | .add name source =>
    match (catalog.add name source).result with
    | .ok after => after
    | .error _ => catalog
  | .has _ | .get _ | .render _ _ | .renderInline _ _ | .options => catalog

/-- The catalog behind requests, one after the other. -/
def behindAll (catalog : Catalog) (requests : List Request) : Catalog :=
  requests.foldl behind catalog

/-- The answers to requests, one after the other. -/
def answers (catalog : Catalog) : List Request → List Answer
  | [] => []
  | request :: rest => catalog.answer request :: (catalog.behind request).answers rest

theorem answers_append (catalog : Catalog) (requests requests' : List Request) :
    catalog.answers (requests ++ requests') =
      catalog.answers requests ++ (catalog.behindAll requests).answers requests' := by
  induction requests generalizing catalog with
  | nil => rfl
  | cons request rest ih =>
    rw [List.cons_append, answers, ih]
    rfl

/-! ### What requests change -/

/-- The request adds the source under the name, and the source compiles. -/
def Request.Adds (request : Request) (name source : String) : Prop :=
  request = .add name source ∧ Template.Compiles source

/-- The last source for the name, among those that compile. -/
def LastAdded (requests : List Request) (name source : String) : Prop :=
  ∃ before request after, requests = before ++ request :: after ∧ request.Adds name source ∧
    ∀ later ∈ after, ∀ source', ¬ later.Adds name source'

theorem result_add (catalog : Catalog) (name source : String) :
    (catalog.add name source).result =
      ((Template.ofSource none source).mapError (⟨·, some name⟩)).map fun template =>
        { catalog with
          templates := catalog.templates.set name (template.rename (some name)) } := by
  rw [add, Logged.result_bind, Template.result_compile, Template.ofSource_eq_map]
  cases Template.ofSource none source <;> rfl

/-- Adding a source succeeds exactly if the source compiles. -/
theorem exists_result_add_iff {catalog : Catalog} {name source : String} :
    (∃ after, (catalog.add name source).result = .ok after) ↔ Template.Compiles source := by
  rw [result_add, Template.Compiles]
  cases Template.ofSource none source with
  | ok template => exact ⟨fun _ => ⟨template, rfl⟩, fun _ => ⟨_, rfl⟩⟩
  | error fault =>
    constructor
    · rintro ⟨after, added⟩
      cases added
    · rintro ⟨template, made⟩
      cases made

theorem behind_add_of_compiles {source : String} {template : Template}
    (made : Template.ofSource none source = .ok template) (catalog : Catalog) (name : String) :
    catalog.behind (.add name source) =
      { catalog with templates := catalog.templates.set name (template.rename (some name)) } := by
  have added := catalog.result_add name source
  rw [made] at added
  rw [behind, added]
  rfl

theorem behind_add_of_not_compiles {source : String} (flawed : ¬ Template.Compiles source)
    (catalog : Catalog) (name : String) : catalog.behind (.add name source) = catalog := by
  cases added : (catalog.add name source).result with
  | ok after => exact absurd (exists_result_add_iff.mp ⟨after, added⟩) flawed
  | error error => rw [behind, added]

/-- A request that adds a source that compiles sets the template of its name to that of
the source. Any other request changes nothing. -/
theorem behind_cases (catalog : Catalog) (request : Request) :
    (∃ name source template, request.Adds name source ∧
      Template.ofSource (some name) source = .ok template ∧
      catalog.behind request =
        { catalog with templates := catalog.templates.set name template }) ∨
    (∀ name source, ¬ request.Adds name source) ∧ catalog.behind request = catalog := by
  cases request with
  | add name source =>
    by_cases compiles : Template.Compiles source
    · obtain ⟨template, made⟩ := compiles
      have named : Template.ofSource (some name) source = .ok (template.rename (some name)) := by
        rw [Template.ofSource_eq_map, made]
        rfl
      exact Or.inl ⟨name, source, _, ⟨rfl, template, made⟩, named,
        behind_add_of_compiles made catalog name⟩
    · right
      constructor
      · rintro name' source' ⟨same, compiled⟩
        cases same
        exact compiles compiled
      · exact behind_add_of_not_compiles compiles catalog name
  | has | get | render | renderInline | options =>
    right
    constructor
    · rintro name source ⟨same, _⟩
      cases same
    · rfl

theorem options_behindAll (catalog : Catalog) (requests : List Request) :
    (catalog.behindAll requests).options = catalog.options := by
  induction requests generalizing catalog with
  | nil => rfl
  | cons request rest ih =>
    have step : (catalog.behind request).options = catalog.options := by
      rcases catalog.behind_cases request with ⟨_, _, _, _, _, changed⟩ | ⟨_, same⟩
      · rw [changed]
      · rw [same]
    exact (ih _).trans step

/-- Only a source that compiles changes what a name has, and only that of its own name. -/
theorem get?_behind (catalog : Catalog) (request : Request) (name : String) :
    (∃ source template, request.Adds name source ∧
      Template.ofSource (some name) source = .ok template ∧
      (catalog.behind request).get? name = some template) ∨
    (∀ source, ¬ request.Adds name source) ∧
      (catalog.behind request).get? name = catalog.get? name := by
  rcases catalog.behind_cases request with
    ⟨added, source, template, adds, made, changed⟩ | ⟨none, same⟩
  · rw [changed]
    by_cases own : name = added
    · subst own
      exact Or.inl ⟨source, template, adds, made, Bindings.find?_set_self _ name template⟩
    · right
      constructor
      · rintro source' ⟨again, _⟩
        rw [adds.1] at again
        cases again
        exact own rfl
      · exact Bindings.find?_set_of_ne _ template own
  · rw [same]
    exact Or.inr ⟨none name, rfl⟩

/-- Behind requests a name has the template of the last source for it that compiled. -/
theorem get?_behindAll (catalog : Catalog) (requests : List Request) (name : String) :
    (∃ source template, LastAdded requests name source ∧
      Template.ofSource (some name) source = .ok template ∧
      (catalog.behindAll requests).get? name = some template) ∨
    (∀ request ∈ requests, ∀ source, ¬ request.Adds name source) ∧
      (catalog.behindAll requests).get? name = catalog.get? name := by
  induction requests generalizing catalog with
  | nil => exact Or.inr ⟨List.forall_mem_nil _, rfl⟩
  | cons request rest ih =>
    rcases ih (catalog.behind request) with ⟨source, template, last, made, found⟩ | ⟨none, same⟩
    · obtain ⟨before, adding, after, rfl, adds, final⟩ := last
      exact Or.inl ⟨source, template, ⟨request :: before, adding, after, rfl, adds, final⟩, made,
        found⟩
    · rcases catalog.get?_behind request name with
        ⟨source, template, adds, made, found⟩ | ⟨other, kept⟩
      · exact Or.inl ⟨source, template, ⟨[], request, rest, rfl, adds, none⟩, made,
          same.trans found⟩
      · exact Or.inr ⟨List.forall_mem_cons.mpr ⟨other, none⟩, same.trans kept⟩

/-! ### Named and nameless renders -/

/-- Under the name the catalog renders what it renders for the nameless source. If that
is an error, it has no name, and the name is all that is attached to it: the fault and
its line are the same. -/
def RendersAs (catalog : Catalog) (name source : String) (context : Value) : Prop :=
  (∃ output, (catalog.renderInline source context).result = .ok output ∧
    (catalog.render name context).result = .ok output) ∨
  ∃ error, (catalog.renderInline source context).result = .error error ∧ error.template = none ∧
    (catalog.render name context).result = .error ⟨error.fault, some name⟩ ∧
    (⟨error.fault, some name⟩ : TemplateError).line? = error.line?

theorem result_renderInline {source : String} {template : Template}
    (made : Template.ofSource none source = .ok template) (catalog : Catalog) (context : Value) :
    (catalog.renderInline source context).result =
      (template.render context catalog.options).result := by
  rw [renderInline, Logged.result_bind, Template.result_compile, made]
  rfl

theorem rendersAs_of_get? {catalog : Catalog} {name source : String} {template : Template}
    (made : Template.ofSource (some name) source = .ok template)
    (found : catalog.get? name = some template) (context : Value) :
    catalog.RendersAs name source context := by
  rw [Template.ofSource_eq_map] at made
  obtain ⟨nameless, compiled, rfl⟩ := exists_of_map_eq_ok made
  have unnamed : nameless.rename none = nameless := by
    obtain ⟨none, _⟩ := Template.ofSource_eq_ok_iff.mp compiled
    rw [Template.rename, ← none]
  have named : (catalog.render name context).result =
      (nameless.render context catalog.options).result.mapError (·.inTemplate name) := by
    rw [render, found, Template.result_render_rename, unnamed]
  unfold RendersAs
  rw [named, result_renderInline compiled]
  cases rendered : (nameless.render context catalog.options).result with
  | ok output => exact Or.inl ⟨output, rfl, rfl⟩
  | error error =>
    obtain ⟨_, key, line, rfl⟩ := Template.error_of_render rendered
    obtain ⟨none, _⟩ := Template.ofSource_eq_ok_iff.mp compiled
    refine Or.inr ⟨_, rfl, none, ?_, rfl⟩
    rw [none]
    rfl

/-! ### Whole histories -/

/-- A source that does not compile is refused under the name, and nothing else comes of it. -/
theorem answers_add_of_not_compiles {source : String} (flawed : ¬ Template.Compiles source)
    (catalog : Catalog) (name : String) (later : List Request) :
    ∃ fault, catalog.answers (.add name source :: later) =
      .added (.fail ⟨fault, some name⟩) :: catalog.answers later := by
  cases made : Template.ofSource none source with
  | ok template => exact absurd ⟨template, made⟩ flawed
  | error fault =>
    have refused : Template.ofSource (some name) source = .error fault := by
      rw [Template.ofSource_eq_map, made]
      rfl
    refine ⟨fault, ?_⟩
    rw [answers, behind_add_of_not_compiles flawed, answer, add,
      Template.compile_of_error refused]
    rfl

/-- The name has the source, and renders as the source does without a name. -/
structure Serves (catalog : Catalog) (name source : String) : Prop where
  has : catalog.has name = true
  get : ∃ template, catalog.get? name = some template ∧ template.name = some name ∧
    template.source = source
  render : ∀ context, catalog.RendersAs name source context

/-- The name has no source, and is not found when it is to be rendered. -/
structure Lacks (catalog : Catalog) (name : String) : Prop where
  has : catalog.has name = false
  get : catalog.get? name = none
  render : ∀ context, catalog.render name context = .fail ⟨.templateNotFound name, none⟩

theorem serves_of_get? {catalog : Catalog} {name source : String} {template : Template}
    (made : Template.ofSource (some name) source = .ok template)
    (found : catalog.get? name = some template) : catalog.Serves name source where
  has := by
    rw [has, Bindings.contains, ← get?, found]
    rfl
  get := ⟨template, found, Template.ofSource_eq_ok_iff.mp made⟩
  render := rendersAs_of_get? made found

theorem lacks_of_get? {catalog : Catalog} {name : String} (missing : catalog.get? name = none) :
    catalog.Lacks name where
  has := by
    rw [has, Bindings.contains, ← get?, missing]
    rfl
  get := missing
  render context := by rw [render, missing]

/-- The catalog behind requests to one that was empty at first. -/
def serving (options : Options) (requests : List Request) : Catalog :=
  (empty options).behindAll requests

/-- **A catalog is a map to the last good sources.** Take any options, and any requests to a
catalog that was empty at first. Behind them the options are the same, and each name has
exactly the last source for it that compiled, if there is one. Adding a source succeeds
if and only if it compiles. The next request changes nothing, unless it adds a source
that compiles, and then only what its own name has. If it adds a source that does not
compile, all later answers are as if it had not been made. -/
theorem serves_last_added (options : Options) (requests : List Request) :
    (serving options requests).options = options ∧
      (∀ name,
        (∃ source, LastAdded requests name source ∧
          (serving options requests).Serves name source) ∨
        (∀ request ∈ requests, ∀ source, ¬ request.Adds name source) ∧
          (serving options requests).Lacks name) ∧
      (∀ name source, (∃ after, ((serving options requests).add name source).result = .ok after) ↔
        Template.Compiles source) ∧
      (∀ request,
        (∃ name source, request.Adds name source ∧ ∀ other, other ≠ name →
          ((serving options requests).behind request).get? other =
            (serving options requests).get? other) ∨
        (serving options requests).behind request = serving options requests) ∧
      ∀ name source, ¬ Template.Compiles source → ∀ later, ∃ fault rest,
        (empty options).answers (requests ++ .add name source :: later) =
          (empty options).answers requests ++ .added (.fail ⟨fault, some name⟩) :: rest ∧
        (empty options).answers (requests ++ later) = (empty options).answers requests ++ rest := by
  refine ⟨options_behindAll _ requests, fun name => ?_, fun _ _ => exists_result_add_iff,
    fun request => ?_, fun name source flawed later => ?_⟩
  · rcases get?_behindAll (empty options) requests name with
      ⟨source, template, last, made, found⟩ | ⟨never, missing⟩
    · exact Or.inl ⟨source, last, serves_of_get? made found⟩
    · exact Or.inr ⟨never, lacks_of_get? missing⟩
  · rcases (serving options requests).behind_cases request with
      ⟨name, source, template, adds, _, changed⟩ | ⟨_, same⟩
    · refine Or.inl ⟨name, source, adds, fun other different => ?_⟩
      rw [changed]
      exact Bindings.find?_set_of_ne _ template different
    · exact Or.inr same
  · obtain ⟨fault, refused⟩ :=
      answers_add_of_not_compiles flawed (serving options requests) name later
    refine ⟨fault, (serving options requests).answers later, ?_, answers_append _ _ _⟩
    rw [answers_append, ← refused]
    rfl

end Catalog

end Stencil
