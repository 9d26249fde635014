import SeriesFormula.Decimal.Layout

/-!
# Numbers of a series

What the statistics and the evaluator ask of a type of numbers. Series are computed with floats; the same definitions
over exact numbers give the meaning of an indicator without rounding.
-/

namespace SeriesFormula

/-- The arithmetic of a series' values. -/
class Number (α : Type) extends Add α, Sub α, Mul α, Div α, Neg α where
  ofNat : Nat → α
  /-- The value that sums start from, which leaves every number unchanged when added. -/
  sumStart : α
  /-- The square root. -/
  root : α → α
  isZero : α → Bool
  /-- The lesser of two numbers. -/
  lesser : α → α → α
  /-- The greater of two numbers. -/
  greater : α → α → α
  /-- The natural number that a number equals. -/
  natural? : α → Option Nat
  /-- The form in which messages show a number. -/
  text : α → String

/-- Floats: zero plus a negative zero is zero, so sums start from the negative one, and a value that is no number
loses every comparison. -/
instance : Number Float where
  ofNat := Float.ofNat
  sumStart := -0.0
  root := Float.sqrt
  isZero x := x == 0.0
  lesser x y := if x.isNaN then y else if y.isNaN then x else if y < x then y else x
  greater x y := if x.isNaN then y else if y.isNaN then x else if x < y then y else x
  natural? := Decimal.natural?
  text := Decimal.plain.text

end SeriesFormula
