import SeriesFormula.Decimal.Nearest

/-!
# The shortest decimal of a float

Of all decimals that read back as a given magnitude, `shortest` takes one with the fewest digits, and among those the
nearest. On the grid of `n` digits only the two neighbours of the magnitude can qualify; the first grid with one that
reads back is taken. The exact expansion stands behind the search, so that the result reads back in any case.
-/

namespace SeriesFormula.Decimal

/-- The decimal `coefficient · 10^exponent`. -/
structure Digits where
  coefficient : Nat
  exponent : Int
  deriving DecidableEq, Repr

/-- Which of two equally near decimals of one length is taken. -/
inductive Tie where
  | up
  | even
  deriving DecidableEq, Repr

def Digits.bits (d : Digits) : Nat := nearest d.coefficient d.exponent

/-- The number of digits before the point of a positive fraction: the least `k` with the fraction below `10^k`. -/
def pointPlace (num den : Nat) : Int :=
  let guess : Int := (Nat.toDigits 10 num).length - (Nat.toDigits 10 den).length
  if den * Nat.pow 10 guess.toNat ≤ num * Nat.pow 10 (-guess).toNat then guess + 1 else guess

/-- The decimal on the grid `10^exponent` that is nearest to a fraction among its two neighbours there that read back
as `bits`. -/
def onGrid (tie : Tie) (bits num den : Nat) (exponent : Int) : Option Digits :=
  let n := num * Nat.pow 10 (-exponent).toNat
  let d := den * Nat.pow 10 exponent.toNat
  let low : Digits := ⟨n / d, exponent⟩
  let high : Digits := ⟨n / d + 1, exponent⟩
  let rest := 2 * (n % d)
  match low.bits == bits, high.bits == bits with
  | false, false => none
  | true, false => some low
  | false, true => some high
  | true, true =>
    if rest < d then some low
    else if d < rest then some high
    else match tie with
      | .up => some high
      | .even => some (if low.coefficient % 2 = 0 then low else high)

/-- All digits of `mantissa · 2^exponent`. -/
def exactDigits (x : Scaled) : Digits :=
  ⟨x.num * Nat.pow 5 (-x.exponent).toNat, min x.exponent 0⟩

/-- The decimal without the zeros at its end; `fuel` bounds their number. -/
def Digits.strip (d : Digits) : Nat → Digits
  | 0 => d
  | fuel + 1 =>
    if d.coefficient % 10 = 0 then Digits.strip ⟨d.coefficient / 10, d.exponent + 1⟩ fuel else d

/-- The shortest decimal of a magnitude that is neither zero nor infinite. -/
def shortest (tie : Tie) (bits : Nat) : Digits :=
  let x := Scaled.ofBits bits
  let place := pointPlace x.num x.den
  let found := (List.range 17).findSome? fun (n : Nat) => onGrid tie bits x.num x.den (place - (n + 1))
  let digits := found.getD (exactDigits x)
  digits.strip digits.coefficient.log2

end SeriesFormula.Decimal
