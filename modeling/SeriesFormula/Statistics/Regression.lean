import SeriesFormula.Statistics.Aggregate

/-!
# Regression

The least-squares line through values at the steps 1, 2, and so on, and the series of its points.
-/

namespace SeriesFormula.Statistics

variable {α : Type} [Number α]

/-- A line. -/
structure LinearFit (α : Type) where
  slope : α
  intercept : α

def LinearFit.predict (fit : LinearFit α) (x : α) : α := fit.slope * x + fit.intercept

/-- The sums from which a line is fitted. -/
structure FitSums (α : Type) where
  x : α
  y : α
  xy : α
  xx : α

/-- The sums over values at the steps from 1 on. -/
def fitSums (ys : List α) : FitSums α :=
  (ys.zipIdx 1).foldl (fun sums (y, step) =>
    let x := Number.ofNat step
    ⟨sums.x + x, sums.y + y, sums.xy + x * y, sums.xx + x * x⟩)
    ⟨Number.ofNat 0, Number.ofNat 0, Number.ofNat 0, Number.ofNat 0⟩

/-- The line with the least sum of squares, for two values or more. -/
def fitLinear (ys : List α) : Option (LinearFit α) :=
  if ys.length < 2 then none
  else
    let n : α := Number.ofNat ys.length
    let sums := fitSums ys
    let slope := (n * sums.xy - sums.x * sums.y) / (n * sums.xx - sums.x * sums.x)
    some ⟨slope, (sums.y - slope * sums.x) / n⟩

/-- The fitted line at each present observation; no point for fewer than two. -/
def regression (s : Series α) : Series α :=
  .ofPairs s!"REGRESSION({s.name})" <|
    match fitLinear s.numbers with
    | none => []
    | some fit => (s.points.zipIdx 1).map fun ((date, _), step) => (date, fit.predict (Number.ofNat step))

end SeriesFormula.Statistics
