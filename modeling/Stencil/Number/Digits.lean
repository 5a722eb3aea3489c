/-!
Decimal digits of whole numbers.

`Digits.ofNat` writes a number without leading zeros and `Digits.toNat` reads
digits, with or without leading zeros; reading what was written gives the number
back (`toNat_ofNat`). Digits of other bases are read by `Digits.inBase?`.
-/

namespace Stencil.Digits

/-- The decimal digits of a number. -/
def ofNat (n : Nat) : List Char :=
  Nat.toDigits 10 n

/-- The decimal digits of an integer, after a minus sign if it is negative. -/
def ofInt (n : Int) : List Char :=
  (if n < 0 then ['-'] else []) ++ ofNat n.natAbs

/-- The number that decimal digits denote. -/
def toNat (ds : List Char) : Nat :=
  Nat.ofDigitChars 10 ds 0

theorem toNat_ofNat (n : Nat) : toNat (ofNat n) = n :=
  Nat.ofDigitChars_toDigits (by decide) (by decide)

theorem ofNat_ne_nil (n : Nat) : ofNat n ≠ [] := by
  rw [ofNat, Nat.toDigits_eq_if (by decide)]
  split <;> simp

theorem isDigit_of_mem_ofNat {n : Nat} {c : Char} (member : c ∈ ofNat n) : c.isDigit = true :=
  Nat.isDigit_of_mem_toDigits (by decide) (by decide) member

/-! ### Other bases -/

/-- The value of a hexadecimal digit, in either case. -/
def hex? (c : Char) : Option Nat :=
  if c.isDigit then
    some (c.toNat - '0'.toNat)
  else if 'a' ≤ c ∧ c ≤ 'f' then
    some (c.toNat - 'a'.toNat + 10)
  else if 'A' ≤ c ∧ c ≤ 'F' then
    some (c.toNat - 'A'.toNat + 10)
  else
    none

/-- The number that a text denotes in a base up to sixteen, if it is digits of that
base and not empty. -/
def inBase? (base : Nat) (cs : List Char) : Option Nat :=
  if cs = [] then
    none
  else
    cs.foldlM (fun n c => ((hex? c).filter (· < base)).map (n * base + ·)) 0

example : inBase? 16 "1Fa".toList = some 0x1fa ∧ inBase? 8 "18".toList = none ∧
    inBase? 2 [] = none := by
  decide

end Stencil.Digits
