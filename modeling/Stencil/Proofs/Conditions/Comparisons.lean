import Stencil.Operator

/-!
Laws of comparisons.

Loose equality and the four orderings coerce their operands by different rules. What they
have in common is the order of two operands by their numbers (`Primitive.order?`): there is
one exactly where both operands have a number, as no number is `nan` (`order?_eq_none_iff`),
and exchanging the operands turns it round (`order?_swap`). An ordering holds where the order
of its operands admits it (`Operator.apply_of_ordering`). Loose equality looks at the order
only where no operand is absent and the operands are neither two texts nor two composites
(`looseEq_of_numeric`); in the other cases it is an equivalence of another kind. From this
follow the laws for all pairs of operands (`Operator.comparisons_consistent`).
-/

namespace Stencil

/-! ### Doubles -/

namespace Double

/-- Comparing the other way round turns the order round. -/
theorem compare?_swap (a b : Double) : b.compare? a = (a.compare? b).map Ordering.swap := by
  unfold compare?
  cases a.position? with
  | none => cases b.position? <;> rfl
  | some p =>
    cases b.position? with
    | none => rfl
    | some q => exact congrArg some (Int.compare_swap p q).symm

/-- Only `nan` is not a number. -/
theorem isNaN_iff {d : Double} : d.isNaN = true ↔ d = .nan := by
  cases d with
  | nan => exact iff_of_true rfl rfl
  | infinite negative => exact iff_of_false Bool.false_ne_true Double.noConfusion
  | finite value => exact iff_of_false Bool.false_ne_true Double.noConfusion

theorem exists_position?_of_isNaN {d : Double} (number : d.isNaN = false) :
    ∃ place, d.position? = some place := by
  rw [isNaN, Option.isNone_eq_false_iff] at number
  exact Option.isSome_iff_exists.mp number

/-- Two doubles that are numbers have an order. -/
theorem exists_compare? {a b : Double} (number : a.isNaN = false) (number' : b.isNaN = false) :
    ∃ ordering, a.compare? b = some ordering := by
  obtain ⟨p, placed⟩ := exists_position?_of_isNaN number
  obtain ⟨q, placed'⟩ := exists_position?_of_isNaN number'
  exact ⟨compare p q, by rw [compare?, placed, placed']⟩

theorem compare?_self {d : Double} (number : d.isNaN = false) : d.compare? d = some .eq := by
  obtain ⟨p, placed⟩ := exists_position?_of_isNaN number
  simp only [compare?, placed]
  exact congrArg some (Int.compare_eq_eq.mpr rfl)

/-- Integers are numbers as doubles. -/
theorem isNaN_ofInt (n : Int) : (ofInt n).isNaN = false := by
  simp only [ofInt, ofRatio, ofUnits]
  split <;> rfl

end Double

/-! ### Structural equality -/

theorem Number.sameAs_comm (a b : Number) : a.sameAs b = b.sameAs a := by
  cases a <;> cases b <;> simp only [sameAs, Bool.beq_comm]

theorem Number.sameAs_self (a : Number) : a.sameAs a = true := by
  cases a <;> simp only [sameAs, beq_self_eq_true]

mutual

/-- Values are the same as each other in both directions. -/
theorem Value.sameAs_comm : (a b : Value) → a.sameAs b = b.sameAs a
  | .null, b => by cases b <;> rfl
  | .bool p, b => by
    cases b with
    | bool q => exact Bool.beq_comm
    | null | number | string | array | object => rfl
  | .number m, b => by
    cases b with
    | number n => exact m.sameAs_comm n
    | null | bool | string | array | object => rfl
  | .string s, b => by
    cases b with
    | string t => exact Bool.beq_comm
    | null | bool | number | array | object => rfl
  | .array items, b => by
    cases b with
    | array items' => exact sameItems_comm items items'
    | null | bool | number | string | object => rfl
  | .object fields, b => by
    cases b with
    | object fields' => exact sameFields_comm fields fields'
    | null | bool | number | string | array => rfl

theorem sameItems_comm : (as bs : List Value) → sameItems as bs = sameItems bs as
  | [], bs => by cases bs <;> rfl
  | a :: as, bs => by
    cases bs with
    | nil => rfl
    | cons b bs => rw [sameItems, sameItems, a.sameAs_comm b, sameItems_comm as bs]

theorem sameFields_comm : (as bs : List (String × Value)) → sameFields as bs = sameFields bs as
  | [], bs => by cases bs <;> rfl
  | (key, a) :: as, bs => by
    cases bs with
    | nil => rfl
    | cons entry bs =>
      obtain ⟨key', b⟩ := entry
      rw [sameFields, sameFields, a.sameAs_comm b, sameFields_comm as bs, Bool.beq_comm]

end

mutual

/-- Every value is the same as itself: the doubles in values are finite. -/
theorem Value.sameAs_self : (a : Value) → a.sameAs a = true
  | .null => rfl
  | .bool p => by rw [Value.sameAs, beq_self_eq_true]
  | .number m => m.sameAs_self
  | .string s => by rw [Value.sameAs, beq_self_eq_true]
  | .array items => sameItems_self items
  | .object fields => sameFields_self fields

theorem sameItems_self : (as : List Value) → sameItems as as = true
  | [] => rfl
  | a :: as => by rw [sameItems, a.sameAs_self, sameItems_self as, Bool.and_true]

theorem sameFields_self : (as : List (String × Value)) → sameFields as as = true
  | [] => rfl
  | (key, a) :: as => by
    rw [sameFields, beq_self_eq_true, a.sameAs_self, sameFields_self as, Bool.and_true,
      Bool.and_true]

end

/-! ### The order of two operands -/

namespace Primitive

/-- The order of two operands by their numbers. -/
def order? (a b : Primitive) : Option Ordering :=
  match a.toNumber?, b.toNumber? with
  | some a, some b => a.compare? b
  | _, _ => none

variable {a b : Primitive}

/-- No operand counts as `nan`. -/
theorem isNaN_of_toNumber? {d : Double} (found : a.toNumber? = some d) : d.isNaN = false := by
  cases a with
  | undefined => cases found
  | composite value => cases found
  | null =>
    obtain rfl := Option.some.inj found
    exact Double.isNaN_ofInt 0
  | bool p =>
    obtain rfl := Option.some.inj found
    exact Double.isNaN_ofInt _
  | number number =>
    simp only [toNumber?] at found
    split at found
    · cases found
    · next notNaN =>
      cases found
      exact Bool.eq_false_iff.mpr notNaN
  | text s =>
    simp only [toNumber?] at found
    split at found
    · obtain rfl := Option.some.inj found
      exact Double.isNaN_ofInt 0
    · obtain ⟨value, _, rfl⟩ := Option.map_eq_some_iff.mp found
      rfl

/-- Two operands have an order exactly if both have a number. -/
theorem order?_eq_none_iff : a.order? b = none ↔ a.toNumber? = none ∨ b.toNumber? = none := by
  unfold order?
  cases found : a.toNumber? with
  | none => simp
  | some d =>
    cases found' : b.toNumber? with
    | none => simp
    | some e =>
      obtain ⟨ordering, compared⟩ :=
        Double.exists_compare? (isNaN_of_toNumber? found) (isNaN_of_toNumber? found')
      simp [compared]

theorem order?_swap (a b : Primitive) : b.order? a = (a.order? b).map Ordering.swap := by
  unfold order?
  cases a.toNumber? with
  | none => cases b.toNumber? <;> rfl
  | some d =>
    cases b.toNumber? with
    | none => rfl
    | some e => exact d.compare?_swap e

theorem order?_self {d : Double} (found : a.toNumber? = some d) : a.order? a = some .eq := by
  simp only [order?, found, Double.compare?_self (isNaN_of_toNumber? found)]

theorem sameNumber_eq (a b : Primitive) : a.sameNumber b = (a.order? b == some .eq) := by
  unfold sameNumber order?
  cases a.toNumber? with
  | none => rfl
  | some d => cases b.toNumber? <;> rfl

/-! ### Loose equality -/

/-- An absent operand equals the absent ones. -/
theorem looseEq_of_absent (absent : a.isAbsent = true) (b : Primitive) :
    a.looseEq b = b.isAbsent := by
  cases a with
  | undefined | null => cases b <;> rfl
  | bool | number | text | composite => cases absent

theorem looseEq_of_absent_right (absent : b.isAbsent = true) (a : Primitive) :
    a.looseEq b = a.isAbsent := by
  cases b with
  | undefined | null => cases a <;> rfl
  | bool | number | text | composite => cases absent

/-- Both operands are texts, or both are composite. -/
def SameSort (a b : Primitive) : Prop :=
  (∃ s t, a = .text s ∧ b = .text t) ∨ ∃ v w, a = .composite v ∧ b = .composite w

theorem SameSort.symm (same : SameSort a b) : SameSort b a := by
  rcases same with ⟨s, t, rfl, rfl⟩ | ⟨v, w, rfl, rfl⟩
  · exact Or.inl ⟨t, s, rfl, rfl⟩
  · exact Or.inr ⟨w, v, rfl, rfl⟩

/-- Where no operand is absent and the operands are not of one sort, equality is that of
numbers. -/
theorem looseEq_of_numeric (present : a.isAbsent = false) (present' : b.isAbsent = false)
    (sorts : ¬ SameSort a b) : a.looseEq b = (a.order? b == some .eq) := by
  unfold looseEq
  -- Two texts, two composites, a composite on one side or the other, and all other pairs.
  split
  · exact absurd (Or.inl ⟨_, _, rfl, rfl⟩) sorts
  · exact absurd (Or.inr ⟨_, _, rfl, rfl⟩) sorts
  · rfl
  · rw [order?_eq_none_iff.mpr (Or.inr rfl)]
    rfl
  · simp only [present, present', Bool.or_false, Bool.false_eq_true, if_false, sameNumber_eq]

theorem looseEq_comm_of_numeric (present : a.isAbsent = false) (present' : b.isAbsent = false)
    (sorts : ¬ SameSort a b) : a.looseEq b = b.looseEq a := by
  have sorts' : ¬ SameSort b a := fun same => sorts same.symm
  rw [looseEq_of_numeric present present' sorts, looseEq_of_numeric present' present sorts',
    order?_swap a b]
  cases a.order? b with
  | none => rfl
  | some ordering => cases ordering <;> rfl

theorem looseEq_comm (a b : Primitive) : a.looseEq b = b.looseEq a := by
  cases absent : a.isAbsent with
  | true => rw [looseEq_of_absent absent, looseEq_of_absent_right absent]
  | false =>
    cases absent' : b.isAbsent with
    | true => rw [looseEq_of_absent absent', looseEq_of_absent_right absent']
    | false =>
      by_cases sorts : SameSort a b
      · rcases sorts with ⟨s, t, rfl, rfl⟩ | ⟨v, w, rfl, rfl⟩
        · exact Bool.beq_comm
        · exact v.sameAs_comm w
      · exact looseEq_comm_of_numeric absent absent' sorts

/-- Every operand but `nan` equals itself. -/
theorem looseEq_self_iff : a.looseEq a = true ↔ a ≠ .number .nan := by
  cases a with
  | undefined | null => simp [looseEq, isAbsent]
  | text s => simp [looseEq]
  | composite v => simp [looseEq, v.sameAs_self]
  | bool p =>
    have equal : looseEq (.bool p) (.bool p) = true := by
      rw [looseEq_of_numeric rfl rfl (by simp [SameSort]), order?_self rfl]
      rfl
    simp [equal]
  | number d =>
    rw [looseEq_of_numeric rfl rfl (by simp [SameSort])]
    cases number : d.isNaN with
    | true =>
      obtain rfl := Double.isNaN_iff.mp number
      have unordered : (Primitive.number .nan).order? (.number .nan) = none := rfl
      simp [unordered]
    | false =>
      have found : (Primitive.number d).toNumber? = some d := by simp [toNumber?, number]
      rw [order?_self found]
      simp [← Double.isNaN_iff, number]

end Primitive

/-! ### Operands by what they stand for -/

namespace Operand

/-- The operand is null or undefined, wherever it comes from. -/
inductive Absent : Operand → Prop where
  | undefined : Absent .undefined
  | null : Absent .null
  | context : Absent (.context .null)

/-- The operand is `nan`. No value of a context is. -/
inductive IsNaN : Operand → Prop where
  | number : IsNaN (.number .nan)
  | variable : IsNaN (.variable (.number .nan))

/-- The operand is a text. -/
inductive Textual : Operand → Prop where
  | text (s : String) : Textual (.text s)
  | variable (s : String) : Textual (.variable (.text s))
  | context (s : String) : Textual (.context (.string s))

/-- The operand is an array or an object. -/
inductive Composite : Operand → Prop where
  | array (items : List Value) : Composite (.context (.array items))
  | object (fields : List (String × Value)) : Composite (.context (.object fields))

/-- The operand counts as a number. -/
def HasNumber (x : Operand) : Prop :=
  ∃ d, x.toNumber? = some d

variable {x y : Operand}

theorem absent_iff : x.Absent ↔ x.primitive.isAbsent = true := by
  constructor
  · intro absent
    cases absent <;> rfl
  · intro absent
    cases x with
    | undefined => exact .undefined
    | null => exact .null
    | bool | number | text => cases absent
    | «variable» scalar => cases scalar <;> cases absent
    | context value =>
      cases value with
      | null => exact .context
      | bool | number | string | array | object => cases absent

theorem isNaN_iff : x.IsNaN ↔ x.primitive = .number .nan := by
  constructor
  · intro isNaN
    cases isNaN <;> rfl
  · intro same
    cases x with
    | undefined | null | bool | text => cases same
    | number d =>
      cases same
      exact .number
    | «variable» scalar =>
      cases scalar <;> cases same
      exact .variable
    | context value =>
      cases value with
      | number n =>
        have number : n.toDouble.isNaN = false := by
          cases n with
          | int n => exact Double.isNaN_ofInt n
          | double d => rfl
        rw [Double.isNaN_iff.mpr (Primitive.number.inj same)] at number
        cases number
      | null | bool | string | array | object => cases same

theorem textual_iff : x.Textual ↔ ∃ s, x.primitive = .text s := by
  constructor
  · intro textual
    cases textual <;> exact ⟨_, rfl⟩
  · rintro ⟨s, same⟩
    cases x with
    | undefined | null | bool | number => cases same
    | text s => exact .text s
    | «variable» scalar =>
      cases scalar <;> cases same
      exact .variable s
    | context value =>
      cases value with
      | string s => exact .context s
      | null | bool | number | array | object => cases same

theorem composite_iff : x.Composite ↔ ∃ value, x.primitive = .composite value := by
  constructor
  · intro composite
    cases composite <;> exact ⟨_, rfl⟩
  · rintro ⟨whole, same⟩
    cases x with
    | undefined | null | bool | number | text => cases same
    | «variable» scalar => cases scalar <;> cases same
    | context value =>
      cases value with
      | array items => exact .array items
      | object fields => exact .object fields
      | null | bool | number | string => cases same

theorem sameSort_iff : Primitive.SameSort x.primitive y.primitive ↔
    x.Textual ∧ y.Textual ∨ x.Composite ∧ y.Composite := by
  simp only [Primitive.SameSort, exists_and_left, exists_and_right, textual_iff, composite_iff]

/-- Two operands have an order exactly if both have a number. -/
theorem exists_order?_iff :
    (∃ ordering, x.primitive.order? y.primitive = some ordering) ↔ x.HasNumber ∧ y.HasNumber := by
  rw [← Option.ne_none_iff_exists', ne_eq, Primitive.order?_eq_none_iff, not_or]
  simp only [HasNumber, ← Option.ne_none_iff_exists', toNumber?, ne_eq]

end Operand

/-! ### Operators -/

namespace Operator

/-- The operators that go by the order of their operands. -/
def orderings : List Operator :=
  [.above, .atLeast, .below, .atMost]

/-- An ordering holds where the order of the operands admits it. -/
theorem apply_of_ordering {op : Operator} (ordering : op ∈ orderings) (x y : Operand) :
    op.apply x y = (x.primitive.order? y.primitive).any op.holdsOf := by
  have same : op.ordersAs x y = (x.primitive.order? y.primitive).any op.holdsOf := by
    unfold ordersAs Primitive.order? Operand.toNumber?
    cases x.primitive.toNumber? with
    | none => rfl
    | some d => cases y.primitive.toNumber? <;> rfl
  simp only [orderings, List.mem_cons, List.not_mem_nil, or_false] at ordering
  rcases ordering with rfl | rfl | rfl | rfl <;> exact same

/-- Exchanging the operands exchanges above and below. -/
theorem apply_swap (x y : Operand) :
    above.apply x y = below.apply y x ∧ atLeast.apply x y = atMost.apply y x := by
  rw [apply_of_ordering (by decide), apply_of_ordering (by decide), apply_of_ordering (by decide),
    apply_of_ordering (by decide), Primitive.order?_swap y.primitive x.primitive]
  cases y.primitive.order? x.primitive with
  | none => exact ⟨rfl, rfl⟩
  | some ordering => cases ordering <;> exact ⟨rfl, rfl⟩

/-- Of two numbers, exactly one of three holds: the first is below, it is above, or it is
both at least and at most the second. -/
theorem trichotomy {x y : Operand} (number : x.HasNumber) (number' : y.HasNumber) :
    [below.apply x y, above.apply x y, atLeast.apply x y && atMost.apply x y].count true = 1 ∧
      atLeast.apply x y = !below.apply x y ∧ atMost.apply x y = !above.apply x y := by
  obtain ⟨ordering, ordered⟩ := Operand.exists_order?_iff.mpr ⟨number, number'⟩
  rw [apply_of_ordering (by decide), apply_of_ordering (by decide), apply_of_ordering (by decide),
    apply_of_ordering (by decide), ordered]
  cases ordering <;> decide

/-- Without two numbers no ordering holds. -/
theorem apply_of_no_number {op : Operator} (ordering : op ∈ orderings) {x y : Operand}
    (none : ¬ (x.HasNumber ∧ y.HasNumber)) : op.apply x y = false := by
  rw [← Operand.exists_order?_iff, ← Option.ne_none_iff_exists', ne_eq,
    Classical.not_not] at none
  rw [apply_of_ordering ordering, none]
  rfl

/-- Where equality is that of numbers, it is what the weak orderings have in common. -/
theorem equal_iff_of_numeric {x y : Operand} (present : ¬ x.Absent) (present' : ¬ y.Absent)
    (sorts : ¬ (x.Textual ∧ y.Textual ∨ x.Composite ∧ y.Composite)) :
    equal.apply x y = true ↔ atLeast.apply x y = true ∧ atMost.apply x y = true := by
  rw [Operand.absent_iff, Bool.not_eq_true] at present present'
  rw [← Operand.sameSort_iff] at sorts
  have numeric : equal.apply x y = (x.primitive.order? y.primitive == some .eq) :=
    Primitive.looseEq_of_numeric present present' sorts
  rw [numeric, apply_of_ordering (by decide), apply_of_ordering (by decide)]
  cases x.primitive.order? y.primitive with
  | none => decide
  | some ordering => cases ordering <;> decide

/-- **The comparisons are consistent on every pair of operands.** Unequal is the negation of
equal; equality is symmetric, and only `nan` does not equal itself. Exchanging the operands
exchanges above and below. If both operands have a number, exactly one of below, above, and
at least together with at most holds, at least is the negation of below, and at most that of
above; otherwise no ordering holds. If no operand is null or undefined, and they are not both
texts and not both arrays or objects, they are equal exactly if the first is at least and at
most the second. -/
theorem comparisons_consistent (x y : Operand) :
    (unequal.apply x y = !equal.apply x y) ∧
      equal.apply x y = equal.apply y x ∧
      (equal.apply x x = true ↔ ¬ x.IsNaN) ∧
      above.apply x y = below.apply y x ∧
      atLeast.apply x y = atMost.apply y x ∧
      (x.HasNumber ∧ y.HasNumber →
        [below.apply x y, above.apply x y, atLeast.apply x y && atMost.apply x y].count true = 1 ∧
          atLeast.apply x y = !below.apply x y ∧ atMost.apply x y = !above.apply x y) ∧
      (¬ (x.HasNumber ∧ y.HasNumber) → ∀ op ∈ orderings, op.apply x y = false) ∧
      (¬ x.Absent → ¬ y.Absent → ¬ (x.Textual ∧ y.Textual ∨ x.Composite ∧ y.Composite) →
        (equal.apply x y = true ↔ atLeast.apply x y = true ∧ atMost.apply x y = true)) := by
  obtain ⟨strict, weak⟩ := apply_swap x y
  refine ⟨rfl, ?_, ?_, strict, weak, ?_, ?_, equal_iff_of_numeric⟩
  · exact x.primitive.looseEq_comm y.primitive
  · rw [Operand.isNaN_iff]
    exact Primitive.looseEq_self_iff
  · rintro ⟨number, number'⟩
    exact trichotomy number number'
  · intro none op ordering
    exact apply_of_no_number ordering none

end Operator

end Stencil
