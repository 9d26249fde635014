import Mathlib.Analysis.Real.Sqrt
import Mathlib.Data.Sign.Basic
import Mathlib.Tactic.FieldSimp
import Mathlib.Tactic.LinearCombination
import Mathlib.Tactic.Ring
import SeriesFormula.Proofs.Statistics.Average
import SeriesFormula.Proofs.Statistics.Correlation

/-!
# The correlation is a coefficient of Pearson

The loop of the correlation adds up products of deviations from the mean (`moments_eq`); its sums are exact.

- one identity of squares (`sum_sq_combination`) gives the inequality of Cauchy and Schwarz and says when it is an
  equation (`cross_sq_le`, `cross_sq_eq_iff`);
- a side has no squared deviations exactly if it is constant (`left_eq_zero_iff`), and a change of units and origin
  multiplies the moments (`moments_affine`), so the inequality is an equation exactly if one list is an affine image of
  the other (`cross_sq_eq_iff_affine`);
- a rational number need not have a rational root, so the coefficient is taken over real numbers, where the moments of
  rational values are the same (`moments_real`, `coefficient_real`).
-/

namespace SeriesFormula

namespace Statistics

/-! ## Moments of deviations -/

/-- The moments of pairs of deviations. -/
def Moments.ofDeviations (ds : List (ℚ × ℚ)) : Moments ℚ :=
  ⟨(ds.map fun d => d.1 * d.2).sum, (ds.map fun d => d.1 ^ 2).sum, (ds.map fun d => d.2 ^ 2).sum⟩

/-- The deviations of two lists from their means over `n` values. -/
def deviations (n : ℕ) (xs ys : List ℚ) : List (ℚ × ℚ) :=
  (xs.zip ys).map fun (x, y) => (x - average xs n, y - average ys n)

/-- **What the loop adds up**, from any sums on. -/
theorem foldl_moments (ds : List (ℚ × ℚ)) (m : Moments ℚ) :
    ds.foldl (fun m d => ⟨m.cross + d.1 * d.2, m.left + d.1 * d.1, m.right + d.2 * d.2⟩) m =
      ⟨m.cross + (Moments.ofDeviations ds).cross, m.left + (Moments.ofDeviations ds).left,
        m.right + (Moments.ofDeviations ds).right⟩ := by
  induction ds generalizing m with
  | nil => simp [Moments.ofDeviations]
  | cons d ds ih =>
    rw [List.foldl_cons, ih]
    simp only [Moments.ofDeviations, List.map_cons, List.sum_cons, Moments.mk.injEq]
    exact ⟨by ring, by ring, by ring⟩

theorem moments_eq (n : ℕ) (xs ys : List ℚ) : moments n xs ys = .ofDeviations (deviations n xs ys) := by
  have hloop := foldl_moments (deviations n xs ys) ⟨0, 0, 0⟩
  simp only [zero_add] at hloop
  rw [deviations, List.foldl_map] at hloop
  exact hloop

/-! ## Squares -/

section Squares

variable (ds : List (ℚ × ℚ))

/-- The squares of a combination of both deviations, added up. -/
theorem sum_sq_combination (a b : ℚ) : (ds.map fun d => (a * d.2 - b * d.1) ^ 2).sum =
    a ^ 2 * (Moments.ofDeviations ds).right - 2 * a * b * (Moments.ofDeviations ds).cross +
      b ^ 2 * (Moments.ofDeviations ds).left := by
  induction ds with
  | nil => simp [Moments.ofDeviations]
  | cons d ds ih =>
    simp only [Moments.ofDeviations] at ih
    simp only [Moments.ofDeviations, List.map_cons, List.sum_cons, ih]
    ring

/-- A sum of squares is zero only if each of them is. -/
theorem sum_sq_eq_zero_iff {β : Type} (f : β → ℚ) (xs : List β) :
    (xs.map fun x => f x ^ 2).sum = 0 ↔ ∀ x ∈ xs, f x = 0 := by
  induction xs with
  | nil => simp
  | cons x xs ih =>
    rw [List.map_cons, List.sum_cons, List.forall_mem_cons, ← ih,
      add_eq_zero_iff_of_nonneg (sq_nonneg _) (sum_sq_nonneg f xs), sq_eq_zero_iff]

/-- The combination that vanishes for deviations in proportion. -/
theorem sum_sq_proportion : (ds.map fun d => ((Moments.ofDeviations ds).left * d.2 -
    (Moments.ofDeviations ds).cross * d.1) ^ 2).sum =
      (Moments.ofDeviations ds).left *
        ((Moments.ofDeviations ds).left * (Moments.ofDeviations ds).right - (Moments.ofDeviations ds).cross ^ 2) := by
  rw [sum_sq_combination]
  ring

variable {ds}

theorem cross_eq_zero (h : (Moments.ofDeviations ds).left = 0) : (Moments.ofDeviations ds).cross = 0 := by
  have hzero := (sum_sq_eq_zero_iff Prod.fst ds).1 h
  refine List.sum_eq_zero fun x hx => ?_
  obtain ⟨d, hd, rfl⟩ := List.mem_map.1 hx
  rw [hzero d hd, zero_mul]

/-- **The inequality of Cauchy and Schwarz** for the moments. -/
theorem cross_sq_le (ds : List (ℚ × ℚ)) : (Moments.ofDeviations ds).cross ^ 2 ≤
    (Moments.ofDeviations ds).left * (Moments.ofDeviations ds).right := by
  -- the combination in proportion says nothing if all deviations of the left side are zero
  rcases (sum_sq_nonneg Prod.fst ds).eq_or_lt' with hleft | hleft
  · have hleft : (Moments.ofDeviations ds).left = 0 := hleft
    rw [cross_eq_zero hleft, hleft, zero_mul, zero_pow two_ne_zero]
  · have hsquares := sum_sq_nonneg
      (fun d => (Moments.ofDeviations ds).left * d.2 - (Moments.ofDeviations ds).cross * d.1) ds
    rw [sum_sq_proportion] at hsquares
    exact sub_nonneg.1 (nonneg_of_mul_nonneg_right hsquares hleft)

/-- **It is an equation** exactly if the deviations are in proportion. -/
theorem cross_sq_eq_iff (hleft : 0 < (Moments.ofDeviations ds).left) :
    (Moments.ofDeviations ds).cross ^ 2 = (Moments.ofDeviations ds).left * (Moments.ofDeviations ds).right ↔
      ∀ d ∈ ds, (Moments.ofDeviations ds).left * d.2 = (Moments.ofDeviations ds).cross * d.1 := by
  have hsquares := sum_sq_eq_zero_iff
    (fun d => (Moments.ofDeviations ds).left * d.2 - (Moments.ofDeviations ds).cross * d.1) ds
  rw [sum_sq_proportion, mul_eq_zero, or_iff_right hleft.ne', sub_eq_zero] at hsquares
  rw [eq_comm, hsquares]
  simp only [sub_eq_zero]

end Squares

/-! ## Constant lists and affine images -/

/-- All values of a list are the same. -/
def IsConstant (xs : List ℚ) : Prop := ∀ x ∈ xs, ∀ y ∈ xs, x = y

section Lists

variable {n : ℕ} {xs ys : List ℚ}

theorem isConstant_iff_average (hx : xs.length = n) : IsConstant xs ↔ ∀ x ∈ xs, x - average xs n = 0 := by
  constructor
  · intro hconstant x hmem
    have hne : xs ≠ [] := List.ne_nil_of_mem hmem
    obtain ⟨hlo, hhi⟩ := average_between hne fun y hy => ⟨(hconstant x hmem y hy).le, (hconstant y hy x hmem).le⟩
    rw [hx] at hlo hhi
    rw [sub_eq_zero]
    exact le_antisymm hlo hhi
  · intro hmean x hmem y hmem'
    rw [sub_eq_zero.1 (hmean x hmem), sub_eq_zero.1 (hmean y hmem')]

/-- **A side without squared deviations is constant.** -/
theorem left_eq_zero_iff (hx : xs.length = n) (hy : ys.length = n) : (moments n xs ys).left = 0 ↔ IsConstant xs := by
  have hfst : (xs.zip ys).map Prod.fst = xs := List.map_fst_zip (hx.trans hy.symm).le
  have hsides : (∀ x ∈ xs, x - average xs n = 0) ↔ ∀ p ∈ xs.zip ys, p.1 - average xs n = 0 := by
    rw [← List.forall_mem_map (f := Prod.fst) (P := fun x => x - average xs n = 0), hfst]
  rw [moments_eq, isConstant_iff_average hx, hsides]
  exact (sum_sq_eq_zero_iff Prod.fst _).trans List.forall_mem_map

theorem right_eq_zero_iff (hx : xs.length = n) (hy : ys.length = n) : (moments n xs ys).right = 0 ↔ IsConstant ys := by
  rw [← left_eq_zero_iff hy hx, moments_swap mul_comm]
  rfl

theorem left_pos (hx : xs.length = n) (hy : ys.length = n) (h : ¬IsConstant xs) : 0 < (moments n xs ys).left := by
  have hne := mt (left_eq_zero_iff hx hy).1 h
  rw [moments_eq] at hne ⊢
  exact (sum_sq_nonneg Prod.fst _).lt_of_ne' hne

theorem average_affine (hn : 1 ≤ n) (hx : xs.length = n) (a b : ℚ) :
    average (xs.map (a * · + b)) n = a * average xs n + b := by
  have hn' : (n : ℚ) ≠ 0 := Nat.cast_ne_zero.2 (by omega)
  have hconst : (xs.map fun _ => b).sum = n * b := by rw [List.map_const', List.sum_replicate, hx, nsmul_eq_mul]
  rw [average_eq, average_eq, List.sum_map_add, hconst, List.sum_map_mul_left, List.map_id', add_div, mul_div_assoc,
    mul_div_cancel_left₀ b hn']

/-- **A change of units and origin** multiplies the moments. -/
theorem moments_affine (hn : 1 ≤ n) (hx : xs.length = n) (ys : List ℚ) (a b : ℚ) :
    moments n (xs.map (a * · + b)) ys =
      ⟨a * (moments n xs ys).cross, a ^ 2 * (moments n xs ys).left, (moments n xs ys).right⟩ := by
  have hdeviations : deviations n (xs.map (a * · + b)) ys = (deviations n xs ys).map fun d => (a * d.1, d.2) := by
    rw [deviations, deviations, average_affine hn hx, List.zip_map_left, List.map_map, List.map_map]
    refine List.map_congr_left fun p _ => congrArg (·, p.2 - average ys n) ?_
    show a * p.1 + b - (a * average xs n + b) = a * (p.1 - average xs n)
    ring
  rw [moments_eq, moments_eq, hdeviations]
  simp only [Moments.ofDeviations, List.map_map, Function.comp_def, mul_assoc, mul_pow, List.sum_map_mul_left]

/-- The moments of an affine image and the list that it comes from. -/
theorem moments_of_affine (hn : 1 ≤ n) (hx : xs.length = n) {a b : ℚ} (h : ys = xs.map (a * · + b)) :
    (moments n xs ys).cross = a * (moments n xs ys).left ∧
      (moments n xs ys).right = a ^ 2 * (moments n xs ys).left := by
  have hproportion : ∀ d ∈ deviations n xs ys, d.2 = a * d.1 := by
    have hzip : xs.zip ys = xs.map fun x => (x, a * x + b) := by
      rw [h, ← List.zip_map', List.map_id']
    rw [deviations, List.forall_mem_map, hzip, List.forall_mem_map, h, average_affine hn hx]
    intro x _
    show a * x + b - (a * average xs n + b) = a * (x - average xs n)
    ring
  rw [moments_eq]
  constructor
  · rw [Moments.ofDeviations, ← List.sum_map_mul_left]
    refine congrArg List.sum (List.map_congr_left fun d hd => ?_)
    rw [hproportion d hd]
    ring
  · rw [Moments.ofDeviations, ← List.sum_map_mul_left]
    refine congrArg List.sum (List.map_congr_left fun d hd => ?_)
    rw [hproportion d hd, mul_pow]

theorem eq_map_of_zip {f : ℚ → ℚ} (hlength : xs.length = ys.length) (h : ∀ p ∈ xs.zip ys, p.2 = f p.1) :
    ys = xs.map f :=
  calc ys = (xs.zip ys).map Prod.snd := (List.map_snd_zip hlength.ge).symm
    _ = (xs.zip ys).map (f ∘ Prod.fst) := List.map_congr_left h
    _ = ((xs.zip ys).map Prod.fst).map f := List.map_map.symm
    _ = xs.map f := by rw [List.map_fst_zip hlength.le]

/-- **The inequality is an equation** exactly if one list is an affine image of the other. -/
theorem cross_sq_eq_iff_affine (hn : 1 ≤ n) (hx : xs.length = n) (hy : ys.length = n) (hvaries : ¬IsConstant xs) :
    (moments n xs ys).cross ^ 2 = (moments n xs ys).left * (moments n xs ys).right ↔
      ∃ a b : ℚ, ys = xs.map (a * · + b) := by
  constructor
  · intro h
    have hleft := left_pos hx hy hvaries
    rw [moments_eq] at h hleft
    rw [cross_sq_eq_iff hleft, ← moments_eq, deviations, List.forall_mem_map] at h
    rw [← moments_eq] at hleft
    refine ⟨(moments n xs ys).cross / (moments n xs ys).left,
      average ys n - (moments n xs ys).cross / (moments n xs ys).left * average xs n, ?_⟩
    refine eq_map_of_zip (hx.trans hy.symm) fun p hp => ?_
    have hproportion := h p hp
    field_simp
    linear_combination hproportion
  · rintro ⟨a, b, h⟩
    obtain ⟨hcross, hright⟩ := moments_of_affine hn hx h
    rw [hcross, hright]
    ring

/-- The sign of the products tells the direction of the line. -/
theorem sign_cross_of_affine (hn : 1 ≤ n) (hx : xs.length = n) (hy : ys.length = n) (hvaries : ¬IsConstant xs) {a b : ℚ}
    (h : ys = xs.map (a * · + b)) : SignType.sign (moments n xs ys).cross = SignType.sign a := by
  rw [(moments_of_affine hn hx h).1, sign_mul, sign_pos (left_pos hx hy hvaries), mul_one]

end Lists

/-! ## The coefficient -/

end Statistics

/-- The arithmetic of real numbers, where each number from zero on has its root. Messages show the whole part. -/
noncomputable instance : Number ℝ where
  ofNat n := n
  sumStart := 0
  root := Real.sqrt
  isZero x := decide (x = 0)
  lesser := min
  greater := max
  natural? x := if x = ⌊x⌋₊ then some ⌊x⌋₊ else none
  text x := toString ⌊x⌋

/-- The series with its rational values as real numbers. -/
def Series.real (s : Series ℚ) : Series ℝ :=
  { s with observations := s.observations.map fun o => { o with value := o.value.map Rat.cast } }

namespace Statistics

theorem numbers_real (s : Series ℚ) : s.real.numbers = s.numbers.map Rat.cast := by
  simp only [Series.real, Series.numbers, List.filterMap_map, List.map_filterMap]
  rfl

theorem total_real (xs : List ℚ) : total (xs.map (Rat.cast : ℚ → ℝ)) = (total xs : ℚ) := by
  rw [total, total, List.foldl_map]
  calc xs.foldl (fun (x : ℝ) (y : ℚ) => x + y) Number.sumStart
      = xs.foldl (fun (x : ℝ) (y : ℚ) => x + y) ((Number.sumStart : ℚ) : ℝ) :=
        congrArg (List.foldl _ · xs) Rat.cast_zero.symm
    _ = (xs.foldl (· + ·) Number.sumStart : ℚ) := List.foldl_hom _ fun x y => (Rat.cast_add x y).symm

theorem average_real (xs : List ℚ) (n : ℕ) : average (xs.map (Rat.cast : ℚ → ℝ)) n = (average xs n : ℚ) := by
  rw [average, average, total_real]
  show ((total xs : ℚ) : ℝ) / (n : ℝ) = ((total xs / (n : ℚ) : ℚ) : ℝ)
  push_cast
  rfl

/-- The moments as real numbers. -/
def Moments.real (m : Moments ℚ) : Moments ℝ := ⟨m.cross, m.left, m.right⟩

/-- **Rational values have rational moments.** -/
theorem moments_real (n : ℕ) (xs ys : List ℚ) :
    moments n (xs.map (Rat.cast : ℚ → ℝ)) (ys.map Rat.cast) = (moments n xs ys).real := by
  rw [moments, moments, average_real, average_real, List.zip_map, List.foldl_map]
  have hstart : (⟨Number.ofNat 0, Number.ofNat 0, Number.ofNat 0⟩ : Moments ℝ) =
      Moments.real ⟨Number.ofNat 0, Number.ofNat 0, Number.ofNat 0⟩ := by
    simp only [Moments.real, Number.ofNat, Nat.cast_zero, Rat.cast_zero]
  refine (congrArg (List.foldl _ · (xs.zip ys)) hstart).trans (List.foldl_hom Moments.real fun m p => ?_)
  simp only [Moments.real, Prod.map]
  push_cast
  rfl

theorem trailing_map {β γ : Type} (f : β → γ) (n : ℕ) (xs : List β) :
    trailing n (xs.map f) = (trailing n xs).map f := by
  rw [trailing, trailing, List.length_map, List.map_drop]

section Coefficient

variable {m : Moments ℚ} (hm : m.cross ^ 2 ≤ m.left * m.right)
include hm

/-- **The coefficient** divides the products by the root of both squares, and is zero where these are. -/
theorem coefficient_real : m.real.coefficient =
    if m.left * m.right = 0 then 0 else m.cross / Real.sqrt (m.left * m.right) := by
  have hsquares : (0 : ℝ) ≤ m.left * m.right := by exact_mod_cast (sq_nonneg m.cross).trans hm
  have hzero : Number.isZero (Real.sqrt (m.left * m.right)) = true ↔ m.left * m.right = 0 := by
    refine decide_eq_true_iff.trans ((Real.sqrt_eq_zero hsquares).trans ?_)
    exact_mod_cast Iff.rfl
  refine if_congr hzero ?_ rfl
  exact Nat.cast_zero

theorem abs_coefficient_real_le : |m.real.coefficient| ≤ 1 := by
  rw [coefficient_real hm]
  split
  next h => simp
  next h =>
    have hcross : |(m.cross : ℝ)| ≤ Real.sqrt (m.left * m.right) := Real.abs_le_sqrt (by exact_mod_cast hm)
    rw [abs_div, abs_of_nonneg (Real.sqrt_nonneg _)]
    exact div_le_one_of_le₀ hcross (Real.sqrt_nonneg _)

end Coefficient

/-- The correlation of rational values over real numbers, where their root is. -/
theorem correlation_real {s t : Series ℚ} {n : ℕ} (hn : min s.numbers.length t.numbers.length = n) (hlong : 2 ≤ n) :
    correlation s.real t.real = (moments n (trailing n s.numbers) (trailing n t.numbers)).real.coefficient := by
  simp only [correlation, numbers_real, List.length_map, hn, trailing_map, moments_real, if_neg (Nat.not_lt.2 hlong)]

/-- **The correlation is a coefficient of Pearson.** For two series with `n` last present values each, two or more, the
square of the sum of products is at most the product of the sums of squares, so the correlation, with the real root,
lies between -1 and 1. That product is zero exactly if one side is constant, which gives the correlation zero; otherwise
the inequality is an equation exactly if one side is an affine image of the other, and then the sum of products has the
sign of its factor. A change of units and origin multiplies the sums. -/
theorem correlation_pearson {s t : Series ℚ} {n : ℕ} (hn : min s.numbers.length t.numbers.length = n) (hlong : 2 ≤ n) :
    let xs := trailing n s.numbers
    let ys := trailing n t.numbers
    let m := moments n xs ys
    m.cross ^ 2 ≤ m.left * m.right ∧
      correlation s.real t.real =
        (if m.left * m.right = 0 then 0 else m.cross / Real.sqrt (m.left * m.right)) ∧
      |correlation s.real t.real| ≤ 1 ∧
      (m.left * m.right = 0 ↔ IsConstant xs ∨ IsConstant ys) ∧
      (¬IsConstant xs → ¬IsConstant ys →
        (m.cross ^ 2 = m.left * m.right ↔ ∃ a b : ℚ, ys = xs.map (a * · + b)) ∧
        ∀ a b : ℚ, ys = xs.map (a * · + b) → SignType.sign m.cross = SignType.sign a) ∧
      ∀ a b : ℚ, moments n (xs.map (a * · + b)) ys = ⟨a * m.cross, a ^ 2 * m.left, m.right⟩ := by
  intro xs ys m
  have hx : xs.length = n := length_trailing (hn ▸ Nat.min_le_left ..)
  have hy : ys.length = n := length_trailing (hn ▸ Nat.min_le_right ..)
  have hone : 1 ≤ n := by omega
  have hm : m.cross ^ 2 ≤ m.left * m.right := by
    rw [show m = _ from moments_eq n xs ys]
    exact cross_sq_le _
  rw [correlation_real hn hlong]
  refine ⟨hm, coefficient_real hm, abs_coefficient_real_le hm, ?_, fun hvaries _ => ⟨?_, fun a b h => ?_⟩,
    moments_affine hone hx ys⟩
  · rw [mul_eq_zero, left_eq_zero_iff hx hy, right_eq_zero_iff hx hy]
  · exact cross_sq_eq_iff_affine hone hx hy hvaries
  · exact sign_cross_of_affine hone hx hy hvaries h

/-- A series of three against the last three of four values, which fall where the others rise. -/
theorem correlation_pearson_falling :
    let s : Series ℚ := ⟨"gdp", [⟨"2020-01-01", some 100⟩, ⟨"2020-02-01", some 1⟩, ⟨"2020-03-01", some 2⟩,
      ⟨"2020-04-01", some 4⟩]⟩
    let t : Series ℚ := ⟨"cpi", [⟨"2020-01-01", some 7⟩, ⟨"2020-02-01", none⟩, ⟨"2020-03-01", some 5⟩,
      ⟨"2020-04-01", some 1⟩]⟩
    min s.numbers.length t.numbers.length = 3 ∧ 2 ≤ 3 ∧ ¬IsConstant (trailing 3 s.numbers) ∧
      ¬IsConstant (trailing 3 t.numbers) ∧ trailing 3 t.numbers = (trailing 3 s.numbers).map ((-2) * · + 9) ∧
      SignType.sign (moments 3 (trailing 3 s.numbers) (trailing 3 t.numbers)).cross = -1 ∧
      |correlation s.real t.real| ≤ 1 := by
  intro s t
  have hn : min s.numbers.length t.numbers.length = 3 := by decide
  have hs : ¬IsConstant (trailing 3 s.numbers) := fun h => absurd (h 1 (by decide) 2 (by decide)) (by decide)
  have ht : ¬IsConstant (trailing 3 t.numbers) := fun h => absurd (h 7 (by decide) 5 (by decide)) (by decide)
  have haffine : trailing 3 t.numbers = (trailing 3 s.numbers).map ((-2) * · + 9) := by decide +kernel
  obtain ⟨-, -, habs, -, hvary, -⟩ := correlation_pearson hn (show 2 ≤ 3 by decide)
  have hsign := (hvary hs ht).2 (-2) 9 haffine
  exact ⟨hn, by decide, hs, ht, haffine, hsign.trans (sign_neg (by decide +kernel)), habs⟩

end Statistics

end SeriesFormula
