import Mathlib.Algebra.BigOperators.Ring.List
import Mathlib.Algebra.Order.Field.Basic
import Mathlib.Tactic.Ring
import SeriesFormula.Proofs.Statistics.Exact
import SeriesFormula.Proofs.Statistics.Pointwise

/-!
# Statistics of other units

The present values of a series are multiplied by a positive factor (`Series.scale`), and all arithmetic is exact. The
values of a statistic are then multiplied by the same factor, or they stay as they are because they are numbers of
values, percentages or an index (`count_scale`, `rateOfChange_scale`, `strengthIndex_scale`).
-/

namespace SeriesFormula

/-! ## Series of other units -/

/-- The series with each present value multiplied by a factor. -/
def Series.scale (k : ℚ) (s : Series ℚ) : Series ℚ :=
  { s with observations := s.observations.map fun o => { o with value := o.value.map (k * ·) } }

namespace Series

variable (k : ℚ) (s : Series ℚ)

theorem scale_one : s.scale 1 = s := by simp [scale]

theorem points_scale : (s.scale k).points = s.points.map fun x => (x.1, k * x.2) := by
  simp only [scale, points, List.filterMap_map, List.map_filterMap]
  refine List.filterMap_congr fun o _ => ?_
  obtain ⟨date, value⟩ := o
  cases value <;> rfl

theorem numbers_scale : (s.scale k).numbers = s.numbers.map (k * ·) := by
  rw [Statistics.numbers_eq_points, points_scale, List.map_map, Statistics.numbers_eq_points, List.map_map]
  rfl

theorem countPresent_scale : (s.scale k).countPresent = s.countPresent := by
  rw [countPresent_eq, numbers_scale, List.length_map, countPresent_eq]

theorem scale_ofPairs (name : String) (pairs : List (String × ℚ)) :
    (ofPairs name pairs).scale k = ofPairs name (pairs.map fun x => (x.1, k * x.2)) := by
  simp [scale, ofPairs]

end Series

namespace Statistics

variable (k : ℚ)

/-! ## Aggregates -/

theorem total_scale (xs : List ℚ) : total (xs.map (k * ·)) = k * total xs := by
  rw [total_eq_sum, total_eq_sum, List.sum_map_mul_left, List.map_id']

theorem average_scale (xs : List ℚ) (n : ℕ) : average (xs.map (k * ·)) n = k * average xs n := by
  rw [average, average, total_scale]
  exact mul_div_assoc k (total xs) n

theorem reduce_scale {f : ℚ → ℚ → ℚ} (hf : ∀ x y, f (k * x) (k * y) = k * f x y) (xs : List ℚ) :
    reduce f (xs.map (k * ·)) = k * reduce f xs := by
  cases xs with
  | nil => exact (mul_zero k).symm
  | cons x xs =>
    rw [List.map_cons, reduce, reduce, List.foldl_map]
    exact List.foldl_hom (k * ·) hf

theorem sum_scale (s : Series ℚ) : sum (s.scale k) = k * sum s := by
  rw [sum, s.numbers_scale, total_scale, sum]

theorem mean_scale (s : Series ℚ) : mean (s.scale k) = k * mean s := by
  rw [mean, mean, s.countPresent_scale, s.numbers_scale, average_scale]
  split
  · exact (mul_zero k).symm
  · rfl

theorem count_scale (s : Series ℚ) : count (s.scale k) = count (α := ℚ) s := by
  rw [count, s.countPresent_scale, count]

section

variable {k} (hk : 0 < k)
include hk

theorem lesser_mul (x y : ℚ) : Number.lesser (k * x) (k * y) = k * Number.lesser x y :=
  (mul_min_of_nonneg x y hk.le).symm

theorem greater_mul (x y : ℚ) : Number.greater (k * x) (k * y) = k * Number.greater x y :=
  (mul_max_of_nonneg x y hk.le).symm

theorem isZero_mul (x : ℚ) : Number.isZero (k * x) = Number.isZero x := by
  rw [Bool.eq_iff_iff, Number.isZero_iff, Number.isZero_iff, mul_eq_zero, or_iff_right hk.ne']

theorem least_scale (s : Series ℚ) : least (s.scale k) = k * least s := by
  rw [least, s.numbers_scale, reduce_scale k (lesser_mul hk), least]

theorem greatest_scale (s : Series ℚ) : greatest (s.scale k) = k * greatest s := by
  rw [greatest, s.numbers_scale, reduce_scale k (greater_mul hk), greatest]

end

/-! ## Changes and means -/

theorem lagged_scale (p : ℕ) (s : Series ℚ) :
    lagged p (s.scale k) = (lagged p s).map fun x => (x.1, k * x.2.1, k * x.2.2) := by
  rw [lagged, lagged, s.points_scale, ← List.map_drop, List.zipWith_map, List.map_zipWith]

theorem momentum_scale (s : Series ℚ) (p : ℕ) : momentum (s.scale k) p = (momentum s p).scale k := by
  rw [momentum, momentum, lagged_scale, List.map_map, Series.scale_ofPairs, List.map_map]
  exact congrArg (Series.ofPairs _) (List.map_congr_left fun x _ => congrArg (x.1, ·) (mul_sub k x.2.2 x.2.1).symm)

/-- A change in percent of the earlier value has no unit. -/
theorem rateOfChange_scale {k : ℚ} (hk : 0 < k) (s : Series ℚ) (p : ℕ) :
    rateOfChange (s.scale k) p = rateOfChange s p := by
  rw [rateOfChange, rateOfChange, lagged_scale, List.filterMap_map]
  refine congrArg (Series.ofPairs _) (List.filterMap_congr fun x _ => ?_)
  have hquotient : (k * x.2.2 - k * x.2.1) / (k * x.2.1) = (x.2.2 - x.2.1) / x.2.1 := by
    rw [← mul_sub, mul_div_mul_left _ _ hk.ne']
  show (if Number.isZero (k * x.2.1) then none else some (x.1, (k * x.2.2 - k * x.2.1) / (k * x.2.1) * 100)) =
    if Number.isZero x.2.1 then none else some (x.1, (x.2.2 - x.2.1) / x.2.1 * 100)
  rw [isZero_mul hk, hquotient]

theorem windows_map {β γ : Type} (f : β → γ) (p : ℕ) (xs : List β) :
    windows p (xs.map f) = (windows p xs).map (List.map f) := by
  simp [windows, Function.comp_def]

theorem movingAverage_scale (s : Series ℚ) (p : ℕ) : movingAverage (s.scale k) p = (movingAverage s p).scale k := by
  rw [movingAverage, movingAverage, s.points_scale, s.numbers_scale, windows_map, ← List.map_drop, List.zipWith_map,
    Series.scale_ofPairs, List.map_zipWith]
  simp only [average_scale]
  rfl

/-! ## Strength index -/

theorem changes_scale (xs : List ℚ) : changes (xs.map (k * ·)) = (changes xs).map (k * ·) := by
  rw [changes, changes, ← List.map_tail, List.zipWith_map, List.map_zipWith]
  simp only [mul_sub]

section

variable {k} (hk : 0 < k)
include hk

theorem rise_mul (x : ℚ) : rise (k * x) = k * rise x := by
  rw [rise, rise, ← greater_mul hk]
  exact congrArg _ (mul_zero k).symm

theorem fall_mul (x : ℚ) : fall (k * x) = k * fall x := by
  rw [fall, fall, ← greater_mul hk]
  exact congrArg₂ _ (mul_neg k x).symm (mul_zero k).symm

omit hk in
/-- What is multiplied by the factor has a mean that is. -/
theorem average_map_scale {f : ℚ → ℚ} (hf : ∀ x, f (k * x) = k * f x) (xs : List ℚ) (p : ℕ) :
    average ((xs.map (k * ·)).map f) p = k * average (xs.map f) p := by
  rw [← average_scale, List.map_map, List.map_map]
  exact congrArg (average · p) (List.map_congr_left fun x _ => hf x)

/-- The index compares rises with falls, and so has no unit. -/
theorem strength_scale (p : ℕ) (xs : List ℚ) : strength p (xs.map (k * ·)) = strength p xs := by
  have hquotient : ∀ gain loss : ℚ, k * gain / (k * loss) = gain / loss := fun gain loss =>
    mul_div_mul_left gain loss hk.ne'
  simp only [strength, average_map_scale (rise_mul hk), average_map_scale (fall_mul hk), isZero_mul hk, hquotient]

theorem strengthIndex_scale (s : Series ℚ) (p : ℕ) : strengthIndex (s.scale k) p = strengthIndex s p := by
  rw [strengthIndex, strengthIndex, s.points_scale, s.numbers_scale, changes_scale, windows_map, ← List.map_drop,
    List.zipWith_map]
  simp only [strength_scale hk]
  rfl

end

/-! ## Regression -/

/-- The sums over values of another unit; the steps have none. -/
def FitSums.scale (sums : FitSums ℚ) : FitSums ℚ := ⟨sums.x, k * sums.y, k * sums.xy, sums.xx⟩

def LinearFit.scale (fit : LinearFit ℚ) : LinearFit ℚ := ⟨k * fit.slope, k * fit.intercept⟩

theorem fitSums_scale (ys : List ℚ) : fitSums (ys.map (k * ·)) = (fitSums ys).scale k := by
  rw [fitSums, fitSums, List.zipIdx_map, List.foldl_map]
  have hstart : (⟨Number.ofNat 0, Number.ofNat 0, Number.ofNat 0, Number.ofNat 0⟩ : FitSums ℚ) =
      FitSums.scale k ⟨Number.ofNat 0, Number.ofNat 0, Number.ofNat 0, Number.ofNat 0⟩ :=
    congrArg₂ (FitSums.mk _ · · _) (mul_zero k).symm (mul_zero k).symm
  refine (congrArg (List.foldl _ · (ys.zipIdx 1)) hstart).trans (List.foldl_hom (FitSums.scale k) fun sums x => ?_)
  simp only [FitSums.scale, Prod.map, id, FitSums.mk.injEq, true_and, and_true]
  constructor
  · ring
  · ring

theorem fitLinear_scale (ys : List ℚ) : fitLinear (ys.map (k * ·)) = (fitLinear ys).map (LinearFit.scale k) := by
  rw [fitLinear, fitLinear, List.length_map]
  split
  · rfl
  · simp only [fitSums_scale, FitSums.scale, LinearFit.scale, Option.map_some, Option.some.injEq, LinearFit.mk.injEq]
    constructor
    · ring
    · ring

theorem predict_scale (fit : LinearFit ℚ) (x : ℚ) : (fit.scale k).predict x = k * fit.predict x := by
  simp only [LinearFit.predict, LinearFit.scale]
  ring

theorem regression_scale (s : Series ℚ) : regression (s.scale k) = (regression s).scale k := by
  rw [regression, regression, s.numbers_scale, s.points_scale, fitLinear_scale, Series.scale_ofPairs]
  cases fitLinear s.numbers with
  | none => rfl
  | some fit =>
    simp only [Option.map_some, List.zipIdx_map, List.map_map]
    refine congrArg (Series.ofPairs _) (List.map_congr_left fun x _ => ?_)
    exact congrArg (x.1.1, ·) (predict_scale k fit x.2)

end Statistics

end SeriesFormula
