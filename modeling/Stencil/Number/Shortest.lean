import Stencil.Number.Double

/-!
The shortest decimal of a double.

Every double is a whole number of steps of `10 ^ (-1074)`, so decimals can be
tried exactly. A decimal *reads back* as a double when that double is the one
nearest to it. `shortest` is the decimal of fewest digits that reads back, and
of those the one closest to the double. It is found on the coarsest grid
`10 ^ j` that holds such a decimal: if any point of a grid reads back, then so
does one of the double's two neighbours on that grid.
-/

namespace Stencil

/-- The number `digits * 10 ^ exponent`. -/
structure Decimal where
  digits : Nat
  exponent : Int
  deriving DecidableEq, Repr

/-- Which of two neighbours at equal distance is taken. -/
inductive Tie where
  | even
  | above
  deriving DecidableEq, Repr

namespace Shortest

/-- A magnitude in steps of `10 ^ (-1074)`. -/
def steps (units : Nat) : Nat :=
  units * Nat.pow 5 1074

/-- The double nearest to a number of steps is the given one. -/
def readsBack (units candidate : Nat) : Bool :=
  Units.nearest candidate (Nat.pow 5 1074) == units

/-- The grid point just above `steps units` is closer than the one just below,
or a tie goes to it. -/
def prefersAbove (tie : Tie) (units grid : Nat) : Bool :=
  let rest := 2 * (steps units % grid)
  if rest = grid then
    tie == .above || steps units / grid % 2 == 1
  else
    grid < rest

/-- The multiple of `grid` steps that stands for a magnitude, if one reads back:
the closer neighbour that does. -/
def onGrid? (tie : Tie) (units grid : Nat) : Option Nat :=
  let below := steps units / grid
  let above := below + 1
  match readsBack units (below * grid), readsBack units (above * grid) with
  | true, true => some (if prefersAbove tie units grid then above else below)
  | true, false => some below
  | false, true => some above
  | false, false => none

/-- The decimal on the coarsest grid up to `10 ^ j` steps. On the finest grid the
magnitude itself is a point. -/
def coarsest (tie : Tie) (units : Nat) : Nat → Decimal
  | 0 => ⟨steps units, -1074⟩
  | j + 1 =>
    match onGrid? tie units (Nat.pow 10 (j + 1)) with
    | some digits => ⟨digits, j + 1 - 1074⟩
    | none => coarsest tie units j

/-- A grid coarser than the magnitude itself: `30103 / 100000` exceeds the decimal
logarithm of two. -/
def reach (units : Nat) : Nat :=
  ((steps units).log2 + 1) * 30103 / 100000 + 1

end Shortest

/-- The shortest decimal that reads back as a magnitude, and of those the
closest. -/
def shortest (tie : Tie) (units : Nat) : Decimal :=
  if units = 0 then ⟨0, 0⟩ else Shortest.coarsest tie units (Shortest.reach units)

end Stencil
