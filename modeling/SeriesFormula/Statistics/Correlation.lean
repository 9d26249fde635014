import SeriesFormula.Statistics.Aggregate

/-!
# Correlation

The coefficient of Pearson of two series, which are matched by their last present values and not by their labels.
-/

namespace SeriesFormula.Statistics

variable {α : Type} [Number α]

/-- The sums of products of deviations from the mean. -/
structure Moments (α : Type) where
  cross : α
  left : α
  right : α

/-- The moments of two lists of one length `n`. -/
def moments (n : Nat) (xs ys : List α) : Moments α :=
  let meanX := average xs n
  let meanY := average ys n
  (xs.zip ys).foldl (fun m (x, y) =>
    let dx := x - meanX
    let dy := y - meanY
    ⟨m.cross + dx * dy, m.left + dx * dx, m.right + dy * dy⟩) ⟨Number.ofNat 0, Number.ofNat 0, Number.ofNat 0⟩

/-- The coefficient that moments give, zero where one side does not vary. -/
def Moments.coefficient (m : Moments α) : α :=
  let scale := Number.root (m.left * m.right)
  if Number.isZero scale then Number.ofNat 0 else m.cross / scale

/-- The last `n` entries of a list. -/
def trailing {β : Type} (n : Nat) (xs : List β) : List β := xs.drop (xs.length - n)

/-- The correlation of two series over as many present values as both have at the end, zero for fewer than two. -/
def correlation (left right : Series α) : α :=
  let xs := left.numbers
  let ys := right.numbers
  let n := min xs.length ys.length
  if n < 2 then Number.ofNat 0 else (moments n (trailing n xs) (trailing n ys)).coefficient

end SeriesFormula.Statistics
