/-!
Bindings of names to values.

Binding a name again replaces its value, so each name has the value that was
bound to it last (`find?_set_self`, `find?_set_of_ne`), and `size` counts
distinct names. Declared variables and the templates of a catalog are bindings.
-/

namespace Stencil

/-- Finitely many names, each with one value. -/
structure Bindings (α : Type) where
  entries : List (String × α)
  distinct : entries.Pairwise fun a b => a.1 ≠ b.1

namespace Bindings

variable {α : Type}

/-- No bindings. -/
def empty : Bindings α :=
  ⟨[], .nil⟩

instance : EmptyCollection (Bindings α) :=
  ⟨empty⟩

instance : Inhabited (Bindings α) :=
  ⟨empty⟩

/-- The value of a name. -/
def find? (bindings : Bindings α) (name : String) : Option α :=
  bindings.entries.lookup name

/-- The name has a value. -/
def contains (bindings : Bindings α) (name : String) : Bool :=
  (bindings.find? name).isSome

/-- The number of names. -/
def size (bindings : Bindings α) : Nat :=
  bindings.entries.length

/-- Binds a name, in place of any value that it had. -/
def set (bindings : Bindings α) (name : String) (value : α) : Bindings α where
  entries := (name, value) :: bindings.entries.filter fun entry => entry.1 != name
  distinct := by
    refine List.pairwise_cons.mpr ⟨fun entry member => ?_, bindings.distinct.filter _⟩
    have := (List.mem_filter.mp member).2
    intro same
    simp [← same] at this

@[simp] theorem find?_empty (name : String) : (∅ : Bindings α).find? name = none :=
  rfl

@[simp] theorem find?_set_self (bindings : Bindings α) (name : String) (value : α) :
    (bindings.set name value).find? name = some value := by
  simp [find?, set]

theorem find?_set_of_ne (bindings : Bindings α) {name other : String} (value : α)
    (h : other ≠ name) : (bindings.set name value).find? other = bindings.find? other := by
  have unequal : (other == name) = false := beq_false_of_ne h
  simp only [find?, set, List.lookup_cons, unequal]
  induction bindings.entries with
  | nil => rfl
  | cons entry rest ih =>
    obtain ⟨key, held⟩ := entry
    by_cases same : key = name
    · subst same
      simpa [List.lookup_cons, unequal] using ih
    · simp [List.lookup_cons, same, ih]

end Bindings

end Stencil
