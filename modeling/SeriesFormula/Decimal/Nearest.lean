import SeriesFormula.Decimal.Binary64

/-!
# The float nearest to a decimal

`nearest c e` is the pattern of the magnitude nearest to `c · 10^e`; of two equally near ones it is the one with an even
mantissa, and beyond the largest number it is infinity. All arithmetic is exact.
-/

namespace SeriesFormula.Decimal

/-- A fraction rounded to a natural number; a half goes to the even neighbour. -/
def roundQuotient (num den : Nat) : Nat :=
  let quotient := num / den
  let twice := 2 * (num % den)
  if twice < den ∨ (twice = den ∧ quotient % 2 = 0) then quotient else quotient + 1

/-- The exponent of the largest power of two that is at most a positive fraction. -/
def floorLog2 (num den : Nat) : Int :=
  let guess : Int := (num.log2 : Int) - den.log2
  if den * Nat.pow 2 guess.toNat ≤ num * Nat.pow 2 (-guess).toNat then guess else guess - 1

/-- The number nearest to a positive fraction, with 53 bits or the least exponent. -/
def nearestScaled (num den : Nat) : Scaled :=
  let exponent := max (floorLog2 num den - 52) leastExponent
  ⟨roundQuotient (num * Nat.pow 2 (-exponent).toNat) (den * Nat.pow 2 exponent.toNat), exponent⟩

def nearestFraction (num den : Nat) : Nat :=
  if num = 0 then 0 else min (nearestScaled num den).bits infinityBits

/-- The pattern nearest to `c · 10^e`. Since ten is more than `2^3`, an exponent far from zero decides without any large
number. -/
def nearest (c : Nat) (e : Int) : Nat :=
  if c = 0 then 0
  else if 0 ≤ e ∧ 1024 ≤ c.log2 + 3 * e then infinityBits
  else if c.log2 + 3 * e < -1080 then 0
  else nearestFraction (c * Nat.pow 10 e.toNat) (Nat.pow 10 (-e).toNat)

end SeriesFormula.Decimal
