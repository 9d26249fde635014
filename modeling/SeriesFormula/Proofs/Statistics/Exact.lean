import Mathlib.Algebra.Order.BigOperators.Group.List
import Mathlib.Algebra.Order.Ring.Rat
import Mathlib.Data.Rat.Sqrt
import SeriesFormula.Statistics.Aggregate

/-!
# Exact numbers

The arithmetic of rational numbers. Sums, products, quotients and comparisons are not rounded; a quotient by zero is
zero, and the root is the exact one where there is one. The total of a list is its sum (`total_eq_sum`).
-/

namespace SeriesFormula

instance : Number ℚ where
  ofNat n := n
  sumStart := 0
  root := Rat.sqrt
  isZero x := x == 0
  lesser := min
  greater := max
  natural? x := if x = x.num.toNat then some x.num.toNat else none
  text := toString

namespace Number

variable {x : ℚ}

theorem isZero_iff : isZero x = true ↔ x = 0 := beq_iff_eq

theorem natural?_eq_some_iff {n : ℕ} : natural? x = some n ↔ x = n := by
  show (if x = x.num.toNat then some x.num.toNat else none) = some n ↔ x = n
  constructor
  · intro h
    split at h
    next hx =>
      cases h
      exact hx
    next => cases h
  · rintro rfl
    simp

end Number

/-! ## Sums -/

namespace Statistics

theorem total_eq_sum (xs : List ℚ) : total xs = xs.sum := List.sum_eq_foldl.symm

theorem average_eq (xs : List ℚ) (n : ℕ) : average xs n = xs.sum / n := congrArg (· / (n : ℚ)) (total_eq_sum xs)

theorem sum_sq_nonneg {β : Type} (f : β → ℚ) (xs : List β) : 0 ≤ (xs.map fun x => f x ^ 2).sum := by
  refine List.sum_nonneg fun y hy => ?_
  obtain ⟨x, -, rfl⟩ := List.mem_map.1 hy
  exact sq_nonneg (f x)

end Statistics

end SeriesFormula
