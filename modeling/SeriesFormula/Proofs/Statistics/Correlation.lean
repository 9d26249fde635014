import Mathlib.Data.List.Zip
import SeriesFormula.Proofs.Statistics.Pointwise

/-!
# Correlation over the last values

- Products of floats commute (`float_mul_comm`), and that is all that the symmetry of the correlation takes: with the
  two sides exchanged, the moments are the same with their sides exchanged (`moments_swap`, `correlation_comm`).
- The correlation sees as many values at the end of both series as the shorter one has (`correlation_congr_trailing`),
  so it is that of their last present observations, and nothing in front of the longer series matters
  (`correlation_of_last_values`).
-/

namespace SeriesFormula.Statistics

/-! ## Products of floats -/

section Products

open Float.Model Float.Model.UnpackedFloat

theorem sign_mul_comm (s t : Sign) : s * t = t * s := by
  cases s <;> cases t <;> rfl

/-- The product of two numbers is rounded once, and the sign of a product is that of its factors in any order. -/
theorem unpacked_mul_comm (spec : Format) (x y : UnpackedFloat) :
    UnpackedFloat.mul spec x y = UnpackedFloat.mul spec y x := by
  cases x with
  | notANumber => cases y <;> rfl
  | infinity s =>
    cases y with
    | notANumber => rfl
    | infinity t => exact congrArg UnpackedFloat.infinity (sign_mul_comm s t)
    | zero t => rfl
    | finite t m e hm => exact congrArg UnpackedFloat.infinity (sign_mul_comm s t)
  | zero s =>
    cases y with
    | notANumber => rfl
    | infinity t => rfl
    | zero t => exact congrArg UnpackedFloat.zero (sign_mul_comm s t)
    | finite t m e hm => exact congrArg UnpackedFloat.zero (sign_mul_comm s t)
  | finite s m e hm =>
    cases y with
    | notANumber => rfl
    | infinity t => exact congrArg UnpackedFloat.infinity (sign_mul_comm s t)
    | zero t => exact congrArg UnpackedFloat.zero (sign_mul_comm s t)
    | finite t m' e' hm' =>
      change roundWithAccuracy spec (s * t) (m * m') (e + e') .exact =
        roundWithAccuracy spec (t * s) (m' * m) (e' + e) .exact
      rw [sign_mul_comm, Nat.mul_comm, Int.add_comm]

/-- **Products of floats commute**, bit for bit. -/
theorem float_mul_comm (x y : Float) : x * y = y * x :=
  congrArg (fun product => Float.ofModel (pack product)) (unpacked_mul_comm _ x.toModel.unpack y.toModel.unpack)

end Products

/-! ## Symmetry -/

section Symmetry

variable {α : Type}

/-- The moments of the two lists in the other order. -/
def Moments.swap (m : Moments α) : Moments α := ⟨m.cross, m.right, m.left⟩

variable [Number α] (hmul : ∀ x y : α, x * y = y * x)
include hmul

theorem moments_swap (n : ℕ) (xs ys : List α) : moments n ys xs = (moments n xs ys).swap := by
  have hstart : (⟨Number.ofNat 0, Number.ofNat 0, Number.ofNat 0⟩ : Moments α) =
      Moments.swap ⟨Number.ofNat 0, Number.ofNat 0, Number.ofNat 0⟩ := rfl
  rw [moments, moments, ← List.zip_swap, List.foldl_map]
  refine (congrArg (List.foldl _ · _) hstart).trans (List.foldl_hom Moments.swap fun m x => ?_)
  -- only the product of both deviations has its factors exchanged
  exact congrArg (Moments.mk · _ _) (congrArg (m.cross + ·) (hmul _ _))

theorem coefficient_swap (m : Moments α) : m.swap.coefficient = m.coefficient := by
  rw [Moments.coefficient, Moments.coefficient, Moments.swap, hmul m.right m.left]

/-- **The correlation is symmetric** if products commute. -/
theorem correlation_comm (s t : Series α) : correlation s t = correlation t s := by
  rw [correlation, correlation, Nat.min_comm, moments_swap hmul, coefficient_swap hmul]

end Symmetry

/-! ## The last values -/

section Trailing

variable {α : Type}

theorem length_trailing {n : ℕ} {xs : List α} (h : n ≤ xs.length) : (trailing n xs).length = n := by
  rw [trailing, List.length_drop]
  omega

/-- What is in front of enough values does not matter. -/
theorem trailing_append {n : ℕ} {xs : List α} (ys : List α) (h : n ≤ xs.length) :
    trailing n (ys ++ xs) = trailing n xs := by
  have hstart : (ys ++ xs).length - n = ys.length + (xs.length - n) := by
    rw [List.length_append]
    omega
  rw [trailing, hstart, List.drop_length_add_append, trailing]

theorem trailing_trailing {n : ℕ} {xs : List α} (h : n ≤ xs.length) : trailing n (trailing n xs) = trailing n xs := by
  rw [trailing, length_trailing h, Nat.sub_self, List.drop_zero]

/-- The last present observations have the last present values. -/
theorem numbers_last_present (s : Series α) (n : ℕ) : (s.present.last n).numbers = trailing n s.numbers := by
  have hlast : s.present.last n = .ofPairs s.name (s.points.drop (s.points.length - n)) := by
    rw [s.present_eq_ofPairs, Series.last, Series.length]
    simp [Series.ofPairs]
  rw [hlast, numbers_eq_points, Series.points_ofPairs, List.map_drop, ← numbers_eq_points, trailing, numbers_eq_points,
    List.length_map]

theorem numbers_append (s : Series α) (front : List (Observation α)) :
    ({ s with observations := front ++ s.observations } : Series α).numbers =
      front.filterMap (·.value) ++ s.numbers :=
  List.filterMap_append

variable [Number α]

/-- **The correlation sees the last values only**, as many as the shorter series has. -/
theorem correlation_congr_trailing {s s' t t' : Series α} {n : ℕ} (hn : min s.numbers.length t.numbers.length = n)
    (hn' : min s'.numbers.length t'.numbers.length = n) (hs : trailing n s'.numbers = trailing n s.numbers)
    (ht : trailing n t'.numbers = trailing n t.numbers) : correlation s' t' = correlation s t := by
  simp only [correlation, hn, hn', hs, ht]

end Trailing

/-- **The correlation of two series of floats** is the same in both orders, is that of as many last present observations
as both series have, and does not change when observations are put in front of the one that is not shorter. -/
theorem correlation_of_last_values (s t : Series Float) :
    correlation s t = correlation t s ∧
    correlation s t = correlation (s.present.last (min s.countPresent t.countPresent))
      (t.present.last (min s.countPresent t.countPresent)) ∧
    ∀ front : List (Observation Float), t.countPresent ≤ s.countPresent →
      correlation { s with observations := front ++ s.observations } t = correlation s t := by
  rw [s.countPresent_eq, t.countPresent_eq]
  refine ⟨correlation_comm float_mul_comm s t, ?_, fun front hlonger => ?_⟩
  · have hs := Nat.min_le_left s.numbers.length t.numbers.length
    have ht := Nat.min_le_right s.numbers.length t.numbers.length
    refine (correlation_congr_trailing rfl ?_ ?_ ?_).symm
    · rw [numbers_last_present, numbers_last_present, length_trailing hs, length_trailing ht, Nat.min_self]
    · rw [numbers_last_present, trailing_trailing hs]
    · rw [numbers_last_present, trailing_trailing ht]
  · refine correlation_congr_trailing (Nat.min_eq_right hlonger) ?_ ?_ rfl
    · rw [numbers_append, List.length_append]
      exact Nat.min_eq_right (Nat.le_add_left_of_le hlonger)
    · rw [numbers_append, trailing_append _ hlonger]

/-- Two outliers and a missing value in front of the longer series. -/
theorem correlation_of_last_values_outliers :
    let s : Series Float := ⟨"trimmed", [⟨"2000-03-01", some 2⟩, ⟨"2000-04-01", none⟩, ⟨"2000-05-01", some 4⟩,
      ⟨"2000-06-01", some 6⟩]⟩
    let t : Series Float := ⟨"short", [⟨"2010-01-01", some 1⟩, ⟨"2010-02-01", some 2⟩, ⟨"2010-03-01", some 3⟩]⟩
    let front : List (Observation Float) := [⟨"2000-01-01", some 1000⟩, ⟨"2000-01-15", none⟩,
      ⟨"2000-02-01", some (-750)⟩]
    t.countPresent ≤ s.countPresent ∧ correlation s t = 1 ∧ correlation t s = 1 ∧
      correlation { s with observations := front ++ s.observations } t = 1 := by
  intro s t front
  have hlonger : t.countPresent ≤ s.countPresent := by decide
  have hone : correlation s t = 1 := by decide +kernel
  obtain ⟨hcomm, -, hfront⟩ := correlation_of_last_values s t
  exact ⟨hlonger, hone, hcomm.symm.trans hone, (hfront front hlonger).trans hone⟩

end SeriesFormula.Statistics
