/-!
Doubles: binary floating-point numbers of 64 bits, as exact data.

A finite double is a sign and a whole number of *units*, where a unit is the
least positive double, `2 ^ (-1074)`. Of the whole numbers of units below
`overflow`, those of at most 53 significant bits are doubles. `Double.ofRatio`
gives the double nearest to a quotient, ties to even; both reading a decimal
numeral and converting an integer are roundings of this kind. Comparison is on
the extended line (`Double.position?`): the two zeros share a place and `nan`
has none.
-/

namespace Stencil

/-! ### Magnitudes -/

namespace Units

/-- The magnitude `2 ^ 1024`, where the doubles end. -/
def overflow : Nat :=
  Nat.pow 2 (1024 + 1074)

theorem overflow_pos : 0 < overflow := by
  decide +kernel

/-- A double has at most 53 significant bits. -/
def Representable (units : Nat) : Prop :=
  ∃ significand scale, significand < Nat.pow 2 53 ∧ units = significand * Nat.pow 2 scale

/-- The binary logarithm of the distance between doubles just above `units`. -/
def spacingLog (units : Nat) : Nat :=
  units.log2 - 52

/-- The whole number nearest to `num / den`, a tie going to the even neighbour. -/
def roundQuotient (num den : Nat) : Nat :=
  let rest := 2 * (num % den)
  if rest < den ∨ rest = den ∧ num / den % 2 = 0 then num / den else num / den + 1

/-- The representable number of units nearest to `num / den`. -/
def nearest (num den : Nat) : Nat :=
  let spacing := Nat.pow 2 (spacingLog (num / den))
  roundQuotient num (den * spacing) * spacing

theorem roundQuotient_le (num den : Nat) : roundQuotient num den ≤ num / den + 1 := by
  simp only [roundQuotient]
  split <;> omega

theorem zero_representable : Representable 0 :=
  ⟨0, 0, by decide, rfl⟩

/-- Rounding up may carry into one more bit, and then the lowest bit is free. -/
theorem representable_mul_pow {significand scale : Nat} (h : significand ≤ Nat.pow 2 53) :
    Representable (significand * Nat.pow 2 scale) := by
  rcases Nat.lt_or_eq_of_le h with below | rfl
  · exact ⟨significand, scale, below, rfl⟩
  · refine ⟨Nat.pow 2 52, scale + 1, by decide, ?_⟩
    change Nat.pow 2 52 * 2 * Nat.pow 2 scale = Nat.pow 2 52 * (Nat.pow 2 scale * 2)
    rw [Nat.mul_assoc, Nat.mul_comm 2]

theorem lt_pow_spacingLog (units : Nat) :
    units < Nat.pow 2 53 * Nat.pow 2 (spacingLog units) := by
  rcases Nat.eq_zero_or_pos units with rfl | positive
  · decide
  · have bound : units < Nat.pow 2 (53 + spacingLog units) :=
      (Nat.log2_lt (by omega)).mp (by unfold spacingLog; omega)
    rwa [Nat.pow_eq, Nat.pow_add] at bound

theorem nearest_representable (num den : Nat) : Representable (nearest num den) := by
  refine representable_mul_pow (Nat.le_trans (roundQuotient_le _ _) ?_)
  rw [← Nat.div_div_eq_div_mul]
  have := lt_pow_spacingLog (num / den)
  exact Nat.div_lt_of_lt_mul (by rwa [Nat.mul_comm])

end Units

/-! ### Doubles -/

/-- A finite double: its sign and its magnitude in units. -/
structure FiniteDouble where
  negative : Bool
  units : Nat
  representable : Units.Representable units
  bounded : units < Units.overflow
  deriving DecidableEq

/-- A double. -/
inductive Double where
  | nan
  | infinite (negative : Bool)
  | finite (value : FiniteDouble)
  deriving DecidableEq

namespace FiniteDouble

/-- The zero of the given sign. -/
def zero (negative : Bool) : FiniteDouble :=
  ⟨negative, 0, Units.zero_representable, Units.overflow_pos⟩

/-- The place on the number line, in units. -/
def position (d : FiniteDouble) : Int :=
  if d.negative then -d.units else d.units

end FiniteDouble

namespace Double

/-- The double nearest to `± num / den` units, with ties to even. Magnitudes that
round to `2 ^ 1024` or more are infinite. -/
def ofUnits (negative : Bool) (num den : Nat) : Double :=
  let units := Units.nearest num den
  if bounded : units < Units.overflow then
    .finite ⟨negative, units, Units.nearest_representable _ _, bounded⟩
  else
    .infinite negative

/-- The double nearest to `± num / den`. -/
def ofRatio (negative : Bool) (num den : Nat) : Double :=
  ofUnits negative (num * Nat.pow 2 1074) den

/-- The double nearest to an integer. -/
def ofInt (n : Int) : Double :=
  ofRatio (decide (n < 0)) n.natAbs 1

/-- The finite double, unless the double is infinite or `nan`. -/
def finite? : Double → Option FiniteDouble
  | .finite value => some value
  | _ => none

/-! ### Order -/

/-- The place on the line extended by the two infinities; `nan` has none. -/
def position? : Double → Option Int
  | .nan => none
  | .infinite negative => some (if negative then -Units.overflow else Units.overflow)
  | .finite value => some value.position

/-- The order of two doubles; none if one of them is `nan`. -/
def compare? (a b : Double) : Option Ordering :=
  match a.position?, b.position? with
  | some a, some b => some (compare a b)
  | _, _ => none

/-- Numeric equality: the two zeros are equal and `nan` equals nothing. -/
def equals (a b : Double) : Bool :=
  a.compare? b == some .eq

def isNaN (d : Double) : Bool :=
  d.position?.isNone

def isZero (d : Double) : Bool :=
  d.position? == some 0

end Double

end Stencil
