import Stencil.Number.Numeral
import Stencil.Value.Basic

/-!
Laws of rounding.

Rounding to doubles keeps the order (`Units.nearest_mono`) and leaves a double as it is
(`Units.nearest_of_representable`). Where the spacing of doubles changes, the order is kept since
rounding below does not go beyond the power of two and rounding above does not fall behind it.
So the place of an integer among the doubles never falls when the integer grows
(`Double.integerPlace_mono`), and it is that of the integer itself up to `2 ^ 53`
(`Double.integerPlace_eq`). The decimal digits of an integer are rounded as the integer is
(`Numeral.toDouble_ofInt`).
-/

namespace Stencil

/-! ### Magnitudes -/

namespace Units

theorem le_roundQuotient (num den : Nat) : num / den ≤ roundQuotient num den := by
  simp only [roundQuotient]
  split <;> omega

theorem roundQuotient_mono {num num' : Nat} (le : num ≤ num') (den : Nat) :
    roundQuotient num den ≤ roundQuotient num' den := by
  have quotients : num / den ≤ num' / den := Nat.div_le_div_right le
  rcases Nat.lt_or_eq_of_le quotients with below | same
  · calc roundQuotient num den
        ≤ num / den + 1 := roundQuotient_le num den
      _ ≤ num' / den := below
      _ ≤ roundQuotient num' den := le_roundQuotient num' den
  · have rests : num % den ≤ num' % den := by
      have whole := Nat.div_add_mod num den
      have whole' := Nat.div_add_mod num' den
      rw [same] at whole
      omega
    simp only [roundQuotient, same]
    split <;> split <;> omega

/-- What is a whole number already is not rounded. -/
theorem roundQuotient_mul (n : Nat) {den : Nat} (positive : 0 < den) :
    roundQuotient (n * den) den = n := by
  simp only [roundQuotient, Nat.mul_mod_left, Nat.mul_div_cancel n positive]
  rw [if_pos (Or.inl positive)]

/-- Rounding carries at most into one more bit. -/
theorem nearest_le (num den : Nat) :
    nearest num den ≤ Nat.pow 2 53 * Nat.pow 2 (spacingLog (num / den)) := by
  refine Nat.mul_le_mul_right _ (Nat.le_trans (roundQuotient_le _ _) ?_)
  rw [← Nat.div_div_eq_div_mul]
  have := lt_pow_spacingLog (num / den)
  exact Nat.div_lt_of_lt_mul (by rwa [Nat.mul_comm])

/-- Where doubles are further apart than a unit, rounding keeps all bits of the significand. -/
theorem le_nearest {num den : Nat} (apart : 0 < spacingLog (num / den)) :
    Nat.pow 2 52 * Nat.pow 2 (spacingLog (num / den)) ≤ nearest num den := by
  have positive : num / den ≠ 0 := by
    intro zero
    rw [zero] at apart
    exact absurd apart (by decide)
  have bits : (num / den).log2 = 52 + spacingLog (num / den) := by
    unfold spacingLog at apart ⊢
    omega
  have reached : Nat.pow 2 52 * Nat.pow 2 (spacingLog (num / den)) ≤ num / den := by
    have least := Nat.log2_self_le positive
    rwa [bits, Nat.pow_add] at least
  refine Nat.mul_le_mul_right _ (Nat.le_trans ?_ (le_roundQuotient _ _))
  rw [← Nat.div_div_eq_div_mul]
  exact (Nat.le_div_iff_mul_le (Nat.two_pow_pos _)).mpr reached

theorem spacingLog_mono {units units' : Nat} (le : units ≤ units') :
    spacingLog units ≤ spacingLog units' := by
  rcases Nat.eq_zero_or_pos units with rfl | positive
  · exact Nat.zero_le _
  · have low : Nat.pow 2 units.log2 ≤ units := Nat.log2_self_le (Nat.ne_of_gt positive)
    have log : units.log2 ≤ units'.log2 :=
      (Nat.le_log2 (Nat.ne_of_gt (Nat.lt_of_lt_of_le positive le))).mpr (Nat.le_trans low le)
    exact Nat.sub_le_sub_right log 52

theorem spacingLog_le {units scale : Nat} (bound : units < Nat.pow 2 53 * Nat.pow 2 scale) :
    spacingLog units ≤ scale := by
  rcases Nat.eq_zero_or_pos units with rfl | positive
  · exact Nat.zero_le _
  · have power : units < Nat.pow 2 (53 + scale) := by
      rwa [Nat.pow_eq, Nat.pow_add]
    have bits := (Nat.log2_lt (Nat.ne_of_gt positive)).mpr power
    unfold spacingLog
    omega

/-- Rounding keeps the order. -/
theorem nearest_mono {num num' : Nat} (le : num ≤ num') (den : Nat) :
    nearest num den ≤ nearest num' den := by
  have quotients : num / den ≤ num' / den := Nat.div_le_div_right le
  rcases Nat.lt_or_eq_of_le (spacingLog_mono quotients) with below | same
  · calc nearest num den
        ≤ Nat.pow 2 53 * Nat.pow 2 (spacingLog (num / den)) := nearest_le num den
      _ = Nat.pow 2 52 * Nat.pow 2 (spacingLog (num / den) + 1) := by
        have double : Nat.pow 2 (spacingLog (num / den) + 1) =
          2 * Nat.pow 2 (spacingLog (num / den)) := Nat.pow_succ'
        rw [double, ← Nat.mul_assoc]
      _ ≤ Nat.pow 2 52 * Nat.pow 2 (spacingLog (num' / den)) :=
        Nat.mul_le_mul_left _ (Nat.pow_le_pow_right (by decide) below)
      _ ≤ nearest num' den := le_nearest (Nat.zero_lt_of_lt below)
  · simp only [nearest, same]
    exact Nat.mul_le_mul_right _ (roundQuotient_mono le _)

/-- A double is the double nearest to it. -/
theorem nearest_of_representable {units : Nat} (representable : Representable units) :
    nearest units 1 = units := by
  obtain ⟨significand, scale, bound, same⟩ := representable
  have spacing : spacingLog units ≤ scale := by
    apply spacingLog_le
    rw [same]
    exact Nat.mul_lt_mul_of_pos_right bound (Nat.two_pow_pos scale)
  obtain ⟨rest, rfl⟩ := Nat.exists_eq_add_of_le' spacing
  have multiple : units = significand * Nat.pow 2 rest * Nat.pow 2 (spacingLog units) := by
    rw [Nat.mul_assoc]
    exact same.trans (congrArg (significand * ·) (Nat.pow_add 2 rest (spacingLog units)))
  have whole := roundQuotient_mul (significand * Nat.pow 2 rest)
    (Nat.two_pow_pos (spacingLog units))
  have exact := (congrArg (roundQuotient · (Nat.pow 2 (spacingLog units))) multiple).trans whole
  rw [nearest, Nat.div_one, Nat.one_mul, exact, ← multiple]

/-- Whole numbers of fewer than 1024 bits are not too large for doubles. -/
theorem nearest_lt_overflow {n bits : Nat} (bound : n ≤ Nat.pow 2 bits) (few : bits < 1024) :
    nearest (n * Nat.pow 2 1074) 1 < overflow := by
  have power (scale : Nat) : Nat.pow 2 bits * Nat.pow 2 scale = Nat.pow 2 (bits + scale) :=
    (Nat.pow_add 2 bits scale).symm
  have grows {low high : Nat} (less : low < high) : Nat.pow 2 low < Nat.pow 2 high :=
    Nat.pow_lt_pow_right (by decide) less
  have representable : Representable (Nat.pow 2 (bits + 1074)) :=
    ⟨1, bits + 1074, by decide, (Nat.one_mul _).symm⟩
  calc nearest (n * Nat.pow 2 1074) 1
      ≤ nearest (Nat.pow 2 (bits + 1074)) 1 := by
        rw [← power]
        exact nearest_mono (Nat.mul_le_mul_right _ bound) 1
    _ = Nat.pow 2 (bits + 1074) := nearest_of_representable representable
    _ < overflow := grows (Nat.add_lt_add_right few 1074)

end Units

/-! ### Places of integers -/

namespace Double

/-- Beyond the doubles, the place is that of an infinity. -/
theorem position?_ofUnits (negative : Bool) (num den : Nat) :
    (ofUnits negative num den).position? =
      some (if negative then -(min (Units.nearest num den) Units.overflow : Nat)
        else (min (Units.nearest num den) Units.overflow : Nat) : Int) := by
  simp only [ofUnits]
  split
  · next bounded =>
    rw [Nat.min_eq_left (Nat.le_of_lt bounded)]
    rfl
  · next beyond =>
    rw [Nat.min_eq_right (Nat.le_of_not_lt beyond)]
    rfl

/-- The magnitude, in units, of the double nearest to a whole number. -/
def wholeUnits (n : Nat) : Nat :=
  min (Units.nearest (n * Nat.pow 2 1074) 1) Units.overflow

/-- The place of the double nearest to an integer. -/
def integerPlace (n : Int) : Int :=
  if n < 0 then -wholeUnits n.natAbs else wholeUnits n.natAbs

theorem position?_ofInt (n : Int) : (ofInt n).position? = some (integerPlace n) := by
  rw [ofInt, ofRatio, position?_ofUnits]
  simp only [decide_eq_true_eq, integerPlace, wholeUnits]

theorem compare?_of_position? {a b : Double} {p q : Int} (placed : a.position? = some p)
    (placed' : b.position? = some q) : a.compare? b = some (compare p q) := by
  rw [compare?, placed, placed']

theorem compare?_ofInt (a b : Int) :
    (ofInt a).compare? (ofInt b) = some (compare (integerPlace a) (integerPlace b)) :=
  compare?_of_position? (position?_ofInt a) (position?_ofInt b)

theorem wholeUnits_mono {n n' : Nat} (le : n ≤ n') : wholeUnits n ≤ wholeUnits n' := by
  have units : n * Nat.pow 2 1074 ≤ n' * Nat.pow 2 1074 := Nat.mul_le_mul_right _ le
  have rounded := Units.nearest_mono units 1
  exact Nat.le_min.mpr ⟨Nat.le_trans (Nat.min_le_left _ _) rounded, Nat.min_le_right _ _⟩

/-- Up to `2 ^ 53`, whole numbers are doubles. -/
theorem wholeUnits_eq {n : Nat} (small : n ≤ Nat.pow 2 53) : wholeUnits n = n * Nat.pow 2 1074 := by
  have below : Units.nearest (n * Nat.pow 2 1074) 1 < Units.overflow :=
    Units.nearest_lt_overflow small (by decide)
  have exact : Units.nearest (n * Nat.pow 2 1074) 1 = n * Nat.pow 2 1074 :=
    Units.nearest_of_representable (@Units.representable_mul_pow n 1074 small)
  exact (Nat.min_eq_left (Nat.le_of_lt below)).trans exact

/-- The place of an integer never falls when the integer grows. -/
theorem integerPlace_mono {a b : Int} (le : a ≤ b) : integerPlace a ≤ integerPlace b := by
  unfold integerPlace
  split
  · split
    · have larger : b.natAbs ≤ a.natAbs := by omega
      have units := wholeUnits_mono larger
      omega
    · omega
  · split
    · omega
    · have larger : a.natAbs ≤ b.natAbs := by omega
      have units := wholeUnits_mono larger
      omega

/-- Up to `2 ^ 53`, the place of an integer is that of its units. -/
theorem integerPlace_eq {n : Int} (small : n.natAbs ≤ Nat.pow 2 53) :
    integerPlace n = n * (Nat.pow 2 1074 : Nat) := by
  rw [integerPlace, wholeUnits_eq small]
  generalize Nat.pow 2 1074 = unit
  split
  · next negative =>
    rw [Int.natCast_mul, ← Int.neg_mul, Int.ofNat_natAbs_of_nonpos (Int.le_of_lt negative),
      Int.neg_neg]
  · next whole => rw [Int.natCast_mul, Int.natAbs_of_nonneg (Int.not_lt.mp whole)]

theorem compare_mul {k : Int} (positive : 0 < k) (a b : Int) :
    compare (a * k) (b * k) = compare a b := by
  rcases Int.lt_trichotomy a b with below | rfl | above
  · rw [Int.compare_eq_lt.mpr below,
      Int.compare_eq_lt.mpr (Int.mul_lt_mul_of_pos_right below positive)]
  · rw [Int.compare_eq_eq.mpr rfl, Int.compare_eq_eq.mpr rfl]
  · rw [Int.compare_eq_gt.mpr above,
      Int.compare_eq_gt.mpr (Int.mul_lt_mul_of_pos_right above positive)]

/-- Up to `2 ^ 53`, integers are compared as such. -/
theorem compare_integerPlace {a b : Int} (small : a.natAbs ≤ Nat.pow 2 53)
    (small' : b.natAbs ≤ Nat.pow 2 53) :
    compare (integerPlace a) (integerPlace b) = compare a b := by
  have positive (scale : Nat) : (0 : Int) < (Nat.pow 2 scale : Nat) :=
    Int.natCast_pos.mpr (Nat.two_pow_pos scale)
  rw [integerPlace_eq small, integerPlace_eq small', compare_mul (positive 1074)]

/-- Integers that are kept as such are finite as doubles. -/
theorem exists_finite_ofInt {n : Int} (inRange : Number.isInRange n = true) :
    ∃ d, ofInt n = .finite d := by
  have bounded : n.natAbs ≤ Nat.pow 2 64 := by
    simp only [Number.isInRange, Bool.and_eq_true, decide_eq_true_eq] at inRange
    change n.natAbs ≤ 18446744073709551616
    omega
  have below := Units.nearest_lt_overflow bounded (by decide)
  rw [ofInt, ofRatio, ofUnits, dif_pos below]
  exact ⟨_, rfl⟩

end Double

/-- The decimal digits of an integer are rounded as the integer is. -/
theorem Numeral.toDouble_ofInt (n : Int) :
    toDouble ⟨decide (n < 0), n.natAbs, 0⟩ = .ofInt n := by
  rw [toDouble]
  split
  · next zero =>
    obtain rfl := Int.natAbs_eq_zero.mp zero
    decide +kernel
  · have near : ¬ (400 : Int) < 0 := by decide
    have large : ¬ (n.natAbs.log2 : Int) + 3 * 0 < -1100 := by omega
    have one : Nat.pow 10 (0 : Int).toNat = 1 := rfl
    have one' : Nat.pow 10 (-(0 : Int)).toNat = 1 := rfl
    simp only [near, large, if_false, one, one', Nat.mul_one]
    rfl

end Stencil
