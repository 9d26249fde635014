import Mathlib.Tactic.LinearCombination
import Mathlib.Tactic.Linarith
import Mathlib.Tactic.Positivity
import Mathlib.Tactic.Ring
import SeriesFormula.Proofs.Statistics.Average

/-!
# The regression is the least-squares line

Values stand at the steps 1, 2, and so on, and a line is judged by the sum of its squared distances from them
(`LinearFit.squaredError`). All arithmetic is exact.

- one more value adds its step, itself and their products to the sums (`fitSums_concat`), so the sums are what their
  names say (`fitSums_x`, `fitSums_xx`, `fitSums_y`), and a squared error is a quadratic form in them
  (`squaredError_eq`);
- the slope is divided by `n² (n² - 1) / 12` (`divisor_fitSums`), and the fitted line solves the normal equations
  (`exists_normal`);
- a line that solves them is better than every other (`NormalEquations.squaredError_eq`,
  `NormalEquations.least_iff_eq`);
- so values on a line are fitted by that line (`fitLinear_values`), and a regression has the sum of its data
  (`sum_regression`).
-/

namespace SeriesFormula.Statistics

/-- The sum of the squared distances of the values at the steps 1, 2, and so on from a line. -/
def LinearFit.squaredError (line : LinearFit ℚ) (ys : List ℚ) : ℚ :=
  ((ys.zipIdx 1).map fun (y, step) => (y - line.predict step) ^ 2).sum

/-- The values of a line at the steps from 1 to `n`. -/
def LinearFit.values (line : LinearFit ℚ) (n : ℕ) : List ℚ := (List.range' 1 n).map fun step : ℕ => line.predict step

/-- What the slope of a fitted line is divided by. -/
def FitSums.divisor (sums : FitSums ℚ) (n : ℕ) : ℚ := n * sums.xx - sums.x * sums.x

/-! ## One more value -/

section Concat

variable (line : LinearFit ℚ) (ys : List ℚ) (y : ℚ)

theorem cast_step (n : ℕ) : ((1 + n : ℕ) : ℚ) = n + 1 := by rw [Nat.cast_add, Nat.cast_one, add_comm]

theorem fitSums_nil : fitSums ([] : List ℚ) = ⟨0, 0, 0, 0⟩ := rfl

/-- **The step of the loop**, for one more value. -/
theorem fitSums_concat : fitSums (ys ++ [y]) =
    ⟨(fitSums ys).x + (ys.length + 1), (fitSums ys).y + y, (fitSums ys).xy + (ys.length + 1) * y,
      (fitSums ys).xx + (ys.length + 1) * (ys.length + 1)⟩ := by
  rw [← cast_step, fitSums, List.zipIdx_append, List.foldl_append]
  rfl

theorem squaredError_concat :
    line.squaredError (ys ++ [y]) = line.squaredError ys + (y - line.predict (ys.length + 1)) ^ 2 := by
  rw [← cast_step, LinearFit.squaredError, List.zipIdx_append, List.map_append, List.sum_append]
  simp [LinearFit.squaredError]

theorem values_succ (n : ℕ) : line.values (n + 1) = line.values n ++ [line.predict (n + 1)] := by
  rw [← cast_step, LinearFit.values, List.range'_1_concat, List.map_append]
  rfl

end Concat

theorem length_values (line : LinearFit ℚ) (n : ℕ) : (line.values n).length = n := by simp [LinearFit.values]

/-! ## The sums -/

section Sums

variable (ys : List ℚ)

theorem fitSums_y : (fitSums ys).y = ys.sum := by
  induction ys using List.reverseRecOn with
  | nil => rfl
  | append_singleton ys y ih => rw [fitSums_concat, ih, List.sum_append, List.sum_singleton]

theorem fitSums_x : (fitSums ys).x = ys.length * (ys.length + 1) / 2 := by
  induction ys using List.reverseRecOn with
  | nil => simp [fitSums_nil]
  | append_singleton ys y ih =>
    rw [fitSums_concat, ih, List.length_append, List.length_singleton]
    push_cast
    ring

theorem fitSums_xx : (fitSums ys).xx = ys.length * (ys.length + 1) * (2 * ys.length + 1) / 6 := by
  induction ys using List.reverseRecOn with
  | nil => simp [fitSums_nil]
  | append_singleton ys y ih =>
    rw [fitSums_concat, ih, List.length_append, List.length_singleton]
    push_cast
    ring

/-- **The divisor of the slope** depends on the number of values alone. -/
theorem divisor_fitSums : (fitSums ys).divisor ys.length = ys.length ^ 2 * (ys.length ^ 2 - 1) / 12 := by
  rw [FitSums.divisor, fitSums_x, fitSums_xx]
  ring

theorem divisor_pos (h : 2 ≤ ys.length) : 0 < (fitSums ys).divisor ys.length := by
  have hlength : (2 : ℚ) ≤ ys.length := by exact_mod_cast h
  rw [divisor_fitSums]
  have : (0 : ℚ) < ys.length ^ 2 - 1 := by nlinarith
  positivity

/-- A squared error as a quadratic form in slope and intercept. -/
theorem squaredError_eq (line : LinearFit ℚ) : line.squaredError ys =
    (ys.map (· ^ 2)).sum - 2 * (line.slope * (fitSums ys).xy + line.intercept * (fitSums ys).y) +
      (line.slope ^ 2 * (fitSums ys).xx + 2 * line.slope * line.intercept * (fitSums ys).x +
        ys.length * line.intercept ^ 2) := by
  induction ys using List.reverseRecOn with
  | nil => simp [LinearFit.squaredError, fitSums_nil]
  | append_singleton ys y ih =>
    rw [squaredError_concat, ih, fitSums_concat, List.map_append, List.sum_append, List.length_append,
      LinearFit.predict]
    push_cast
    simp
    ring

end Sums

/-! ## Normal equations -/

/-- The normal equations of a line for some values: it has their sum, and the same sum of products with the steps. -/
structure NormalEquations (ys : List ℚ) (line : LinearFit ℚ) : Prop where
  sum : line.slope * (fitSums ys).x + line.intercept * ys.length = (fitSums ys).y
  products : line.slope * (fitSums ys).xx + line.intercept * (fitSums ys).x = (fitSums ys).xy

section NormalEquations

variable {ys : List ℚ} {line : LinearFit ℚ}

/-- The line that is fitted to two values or more. -/
theorem exists_fitLinear (h : 2 ≤ ys.length) : ∃ line : LinearFit ℚ, fitLinear ys = some line ∧
    line.slope = (ys.length * (fitSums ys).xy - (fitSums ys).x * (fitSums ys).y) / (fitSums ys).divisor ys.length ∧
    line.intercept = ((fitSums ys).y - line.slope * (fitSums ys).x) / ys.length :=
  ⟨_, if_neg (Nat.not_lt.2 h), rfl, rfl⟩

/-- **The fitted line solves the normal equations.** -/
theorem exists_normal (h : 2 ≤ ys.length) : ∃ line, fitLinear ys = some line ∧ NormalEquations ys line := by
  obtain ⟨line, hfit, hslope, hintercept⟩ := exists_fitLinear h
  have hlength : (ys.length : ℚ) ≠ 0 := Nat.cast_ne_zero.2 (by omega)
  rw [eq_div_iff (divisor_pos ys h).ne', FitSums.divisor] at hslope
  rw [eq_div_iff hlength] at hintercept
  -- the second equation is multiplied by the number of values, so that the divisor of the slope appears in it
  refine ⟨line, hfit, ?_, mul_left_cancel₀ hlength ?_⟩
  · linear_combination hintercept
  · linear_combination hslope + (fitSums ys).x * hintercept

/-- **What another line loses** against one that solves the normal equations. -/
theorem NormalEquations.squaredError_eq (h : NormalEquations ys line) (other : LinearFit ℚ) :
    ys.length * (other.squaredError ys - line.squaredError ys) =
      (ys.length * (other.intercept - line.intercept) + (fitSums ys).x * (other.slope - line.slope)) ^ 2 +
        (fitSums ys).divisor ys.length * (other.slope - line.slope) ^ 2 := by
  rw [Statistics.squaredError_eq, Statistics.squaredError_eq, FitSums.divisor]
  linear_combination 2 * ys.length * (other.intercept - line.intercept) * h.sum +
    2 * ys.length * (other.slope - line.slope) * h.products

/-- **A line that solves the normal equations** is better than every other. -/
theorem NormalEquations.squaredError_lt (h : NormalEquations ys line) (hlong : 2 ≤ ys.length) {other : LinearFit ℚ}
    (hne : other ≠ line) : line.squaredError ys < other.squaredError ys := by
  have hlength : (0 : ℚ) < ys.length := Nat.cast_pos.2 (by omega)
  have hdivisor := divisor_pos ys hlong
  have hloss := h.squaredError_eq other
  rw [← sub_pos, ← mul_pos_iff_of_pos_left hlength, hloss]
  by_cases hslope : other.slope = line.slope
  · -- two lines of one slope differ in the intercept
    have hintercept : other.intercept ≠ line.intercept := by
      intro hintercept
      obtain ⟨slope, intercept⟩ := line
      exact hne (congrArg₂ LinearFit.mk hslope hintercept)
    have hdifference := mul_ne_zero hlength.ne' (sub_ne_zero.2 hintercept)
    rw [hslope, sub_self, mul_zero, add_zero, zero_pow two_ne_zero, mul_zero, add_zero]
    positivity
  · have hdifference := sub_ne_zero.2 hslope
    exact add_pos_of_nonneg_of_pos (sq_nonneg _) (mul_pos hdivisor (by positivity))

/-- **The fitted line is the one with the least squared error.** -/
theorem NormalEquations.least_iff_eq (h : NormalEquations ys line) (hlong : 2 ≤ ys.length) (candidate : LinearFit ℚ) :
    (∀ other : LinearFit ℚ, candidate.squaredError ys ≤ other.squaredError ys) ↔ candidate = line := by
  constructor
  · intro hleast
    by_contra hne
    exact (h.squaredError_lt hlong hne).not_ge (hleast line)
  · rintro rfl other
    by_cases hne : other = candidate
    · rw [hne]
    · exact (h.squaredError_lt hlong hne).le

end NormalEquations

/-! ## Values on a line -/

section OnLine

variable {line : LinearFit ℚ} {ys : List ℚ}

theorem squaredError_nonneg (line : LinearFit ℚ) (ys : List ℚ) : 0 ≤ line.squaredError ys :=
  sum_sq_nonneg (fun x : ℚ × ℕ => x.1 - line.predict x.2) (ys.zipIdx 1)

theorem squaredError_values (line : LinearFit ℚ) (n : ℕ) : line.squaredError (line.values n) = 0 := by
  induction n with
  | zero => rfl
  | succ n ih => rw [values_succ, squaredError_concat, length_values, ih, sub_self, zero_pow two_ne_zero, add_zero]

/-- **Values on a line are fitted by that line.** -/
theorem fitLinear_values (line : LinearFit ℚ) {n : ℕ} (hn : 2 ≤ n) : fitLinear (line.values n) = some line := by
  have hlong : 2 ≤ (line.values n).length := (length_values line n).symm ▸ hn
  obtain ⟨fit, hfit, hnormal⟩ := exists_normal hlong
  have hleast : ∀ other : LinearFit ℚ, line.squaredError (line.values n) ≤ other.squaredError (line.values n) := by
    intro other
    rw [squaredError_values]
    exact squaredError_nonneg other _
  rw [hfit, (hnormal.least_iff_eq hlong line).1 hleast]

theorem sum_values (line : LinearFit ℚ) (n : ℕ) :
    (line.values n).sum = line.slope * (n * (n + 1) / 2) + line.intercept * n := by
  induction n with
  | zero => simp [LinearFit.values]
  | succ n ih =>
    rw [values_succ, List.sum_append, ih, List.sum_singleton, LinearFit.predict]
    push_cast
    ring

/-- **The values of a fitted line have the sum of the data.** -/
theorem NormalEquations.sum_values (h : NormalEquations ys line) : (line.values ys.length).sum = ys.sum := by
  rw [Statistics.sum_values, ← fitSums_x, h.sum, fitSums_y]

end OnLine

/-! ## Regressions -/

section Regression

variable {s : Series ℚ} {fit : LinearFit ℚ}

/-- **A regression** has the values of the fitted line at the labels of the present observations. -/
theorem regression_eq_zip (h : fitLinear s.numbers = some fit) : regression s =
    .ofPairs s!"REGRESSION({s.name})" ((s.points.map Prod.fst).zip (fit.values s.countPresent)) := by
  rw [regression, h, ← length_points, LinearFit.values, List.zip_map, List.zipIdx_eq_zip_range']
  rfl

theorem numbers_regression (h : fitLinear s.numbers = some fit) :
    (regression s).numbers = fit.values s.countPresent := by
  have hlength : (fit.values s.countPresent).length ≤ (s.points.map Prod.fst).length := by
    rw [length_values, List.length_map, length_points]
  rw [regression_eq_zip h, numbers_eq_points, Series.points_ofPairs, List.map_snd_zip hlength]

/-- **Values on a line stay as they are.** -/
theorem regression_of_values {line : LinearFit ℚ} (hlong : 2 ≤ s.countPresent)
    (h : s.numbers = line.values s.countPresent) : (regression s).observations = s.present.observations := by
  have hfit : fitLinear s.numbers = some line := h ▸ fitLinear_values line hlong
  rw [regression_eq_zip hfit, ← h, numbers_eq_points, s.present_eq_ofPairs]
  exact congrArg (fun pairs => (Series.ofPairs s.name pairs).observations) (List.zip_of_prod rfl rfl).symm

theorem countPresent_regression (hlong : 2 ≤ s.countPresent) : (regression s).countPresent = s.countPresent := by
  obtain ⟨fit, hfit, -⟩ := exists_fitLinear (s.countPresent_eq ▸ hlong)
  rw [Series.countPresent_eq, numbers_regression hfit, length_values]

theorem observations_regression_of_short (hshort : s.countPresent < 2) : (regression s).observations = [] := by
  rw [s.countPresent_eq] at hshort
  rw [regression, fitLinear, if_pos hshort]
  rfl

/-- **A regression of a regression** has the same points. -/
theorem regression_regression (s : Series ℚ) :
    (regression (regression s)).observations = (regression s).observations := by
  by_cases hlong : 2 ≤ s.countPresent
  · obtain ⟨fit, hfit, -⟩ := exists_fitLinear (s.countPresent_eq ▸ hlong)
    have hcount := countPresent_regression hlong
    have hline : (regression s).numbers = fit.values (regression s).countPresent := by
      rw [hcount, numbers_regression hfit]
    rw [regression_of_values (hcount ▸ hlong) hline, pointwise_regression.present]
  · have hempty := observations_regression_of_short (Nat.not_le.1 hlong)
    have hnone : (regression s).countPresent = 0 := by rw [Series.countPresent, hempty, List.countP_nil]
    rw [observations_regression_of_short (hnone ▸ two_pos), hempty]

/-- **A regression has the sum of its data.** -/
theorem sum_regression (hlong : 2 ≤ s.countPresent) : sum (regression s) = sum s := by
  obtain ⟨fit, hfit, hnormal⟩ := exists_normal (s.countPresent_eq ▸ hlong)
  rw [sum, sum, total_eq_sum, total_eq_sum, numbers_regression hfit, s.countPresent_eq, hnormal.sum_values]

theorem mean_regression (hlong : 2 ≤ s.countPresent) : mean (regression s) = mean s := by
  have hsum : total (regression s).numbers = total s.numbers := sum_regression hlong
  rw [mean, mean, countPresent_regression hlong, average, average, hsum]

end Regression

/-- **The regression is the least-squares line.** For two values or more, the slope is divided by `n² (n² - 1) / 12`,
which is not zero, and the fitted line is the only one with the least squared error. So values on a line stay as they
are, a regression of a regression has the same points, and sum and mean of a regression are those of its data. -/
theorem regression_least_squares :
    (∀ ys : List ℚ, 2 ≤ ys.length →
      (fitSums ys).divisor ys.length = ys.length ^ 2 * (ys.length ^ 2 - 1) / 12 ∧
        (fitSums ys).divisor ys.length ≠ 0 ∧
        ∃ fit : LinearFit ℚ, fitLinear ys = some fit ∧
          fit.slope = (ys.length * (fitSums ys).xy - (fitSums ys).x * (fitSums ys).y) /
            (fitSums ys).divisor ys.length ∧
          ∀ line : LinearFit ℚ,
            (∀ other : LinearFit ℚ, line.squaredError ys ≤ other.squaredError ys) ↔ line = fit) ∧
      ∀ s : Series ℚ,
        (2 ≤ s.countPresent →
          (∀ line : LinearFit ℚ, s.numbers = line.values s.countPresent →
            (regression s).observations = s.present.observations) ∧
          sum (regression s) = sum s ∧ mean (regression s) = mean s) ∧
        (regression (regression s)).observations = (regression s).observations := by
  constructor
  · intro ys hlong
    obtain ⟨fit, hfit, hslope, -⟩ := exists_fitLinear hlong
    obtain ⟨line, hline, hnormal⟩ := exists_normal hlong
    rw [hfit, Option.some.injEq] at hline
    subst hline
    exact ⟨divisor_fitSums ys, (divisor_pos ys hlong).ne', fit, hfit, hslope, hnormal.least_iff_eq hlong⟩
  · intro s
    refine ⟨fun hlong => ⟨?_, sum_regression hlong, mean_regression hlong⟩, regression_regression s⟩
    intro line hline
    exact regression_of_values hlong hline

/-- Three values off a line, and three on one with a missing value between them. -/
theorem regression_least_squares_three :
    let ys : List ℚ := [1, 3, 2]
    let fit : LinearFit ℚ := ⟨1 / 2, 1⟩
    let s : Series ℚ := ⟨"gdp", [⟨"2020-01-01", some 3⟩, ⟨"2020-02-01", none⟩, ⟨"2020-03-01", some 5⟩,
      ⟨"2020-04-01", some 7⟩]⟩
    2 ≤ ys.length ∧ fitLinear ys = some fit ∧ fit.squaredError ys = 3 / 2 ∧
      (∀ other : LinearFit ℚ, fit.squaredError ys ≤ other.squaredError ys) ∧
      2 ≤ s.countPresent ∧ s.numbers = (LinearFit.mk 2 1).values s.countPresent ∧
      (regression s).observations = s.present.observations ∧ sum (regression s) = 15 ∧ mean (regression s) = 5 := by
  intro ys fit s
  have hlong : 2 ≤ ys.length := by decide
  have hpresent : 2 ≤ s.countPresent := by decide
  have hline : s.numbers = (LinearFit.mk 2 1).values s.countPresent := by decide +kernel
  have hfit : fitLinear ys = some fit := by
    rw [fitLinear, if_neg (by decide)]
    exact congrArg some (congrArg₂ LinearFit.mk (by decide +kernel) (by decide +kernel))
  obtain ⟨hlists, hseries⟩ := regression_least_squares
  obtain ⟨-, -, best, hbest, -, hleast⟩ := hlists ys hlong
  obtain ⟨⟨hstays, hsum, hmean⟩, -⟩ := (hseries s).imp_left fun h => h hpresent
  rw [hfit, Option.some.injEq] at hbest
  exact ⟨hlong, hfit, by decide +kernel, (hleast fit).2 hbest, hpresent, hline, hstays _ hline,
    hsum.trans (by decide +kernel), hmean.trans (by decide +kernel)⟩

end SeriesFormula.Statistics
