import Mathlib.Tactic.FieldSimp
import Mathlib.Tactic.Linarith
import Mathlib.Tactic.Ring
import SeriesFormula.Proofs.Statistics.Average

/-!
# The strength index and the momentum

The rises and the falls among some changes are added up apart (`totalRise`, `totalFall`); their difference is the sum of
the changes, which telescopes to the difference of the last value and the first (`sum_changes`).

- over exact numbers the strength index is the share of the rises in all movement, in percent, and 100 where nothing
  falls (`strength_of_moves`, `strength_of_no_fall`), so it is on the side of 50 on which the difference of rises and
  falls is of zero (`strength_compare`);
- a point of the strength index and the point of the momentum in its place come from the same `p + 1` present values
  (`strengthIndex_window`, `momentum_window`).
-/

namespace SeriesFormula.Statistics

/-! ## Rises and falls -/

/-- The sum of the rises among some changes. -/
def totalRise (changes : List ℚ) : ℚ := (changes.filter (0 < ·)).sum

/-- The sum of the falls among some changes, as a number that is not negative. -/
def totalFall (changes : List ℚ) : ℚ := -(changes.filter (· < 0)).sum

section Movement

variable (xs : List ℚ)

theorem totalFall_eq_totalRise_neg : totalFall xs = totalRise (xs.map (-·)) := by
  rw [totalFall, totalRise, List.filter_map, List.sum_neg]
  congr 3
  funext x
  simp

theorem pos_of_mem_rises {x : ℚ} (hx : x ∈ xs.filter (0 < ·)) : 0 < x := of_decide_eq_true (List.mem_filter.1 hx).2

theorem totalRise_nonneg : 0 ≤ totalRise xs := List.sum_nonneg fun _ hx => (pos_of_mem_rises xs hx).le

theorem totalFall_nonneg : 0 ≤ totalFall xs := totalFall_eq_totalRise_neg xs ▸ totalRise_nonneg _

/-- Only rises add to the rises. -/
theorem totalRise_eq_zero_iff : totalRise xs = 0 ↔ ∀ x ∈ xs, x ≤ 0 := by
  have hempty : totalRise xs = 0 ↔ xs.filter (0 < ·) = [] := by
    refine ⟨fun hzero => ?_, fun hnone => by rw [totalRise, hnone, List.sum_nil]⟩
    by_contra hsome
    exact (List.sum_pos _ (fun x hx => pos_of_mem_rises xs hx) hsome).ne' hzero
  rw [hempty, List.filter_eq_nil_iff]
  simp only [decide_eq_true_eq, not_lt]

theorem totalFall_eq_zero_iff : totalFall xs = 0 ↔ ∀ x ∈ xs, 0 ≤ x := by
  rw [totalFall_eq_totalRise_neg, totalRise_eq_zero_iff, List.forall_mem_map]
  simp only [neg_nonpos]

/-- With a fall among them, changes move something. -/
theorem moves_pos {xs : List ℚ} (h : totalFall xs ≠ 0) : 0 < totalRise xs + totalFall xs :=
  add_pos_of_nonneg_of_pos (totalRise_nonneg xs) ((totalFall_nonneg xs).lt_of_ne' h)

/-- The changes that are clamped at zero add up to the rises. -/
theorem sum_map_rise : (xs.map rise).sum = totalRise xs := by
  induction xs with
  | nil => rfl
  | cons x xs ih =>
    rw [List.map_cons, List.sum_cons, ih, totalRise, totalRise, List.filter_cons]
    rcases lt_or_ge 0 x with hx | hx
    · have hrise : rise x = x := max_eq_left hx.le
      simp [hx, hrise]
    · have hrise : rise x = 0 := max_eq_right hx
      simp [hx.not_gt, hrise]

theorem sum_map_fall : (xs.map fall).sum = totalFall xs := by
  rw [totalFall_eq_totalRise_neg, ← sum_map_rise, List.map_map]
  rfl

/-- What has risen and not fallen again is the whole change. -/
theorem totalRise_sub_totalFall : totalRise xs - totalFall xs = xs.sum := by
  induction xs with
  | nil => simp [totalRise, totalFall]
  | cons x xs ih =>
    rw [totalRise, totalFall] at ih ⊢
    rw [List.sum_cons, ← ih, List.filter_cons, List.filter_cons]
    rcases lt_trichotomy x 0 with hx | rfl | hx
    · simp [hx, hx.not_gt]
      ring
    · simp
    · simp [hx, hx.not_gt]
      ring

end Movement

/-! ## Strength -/

section Strength

variable {p : ℕ} (hp : 1 ≤ p) (xs : List ℚ)
include hp

/-- The number of changes cancels out. -/
theorem strength_eq_ite : strength p xs =
    if totalFall xs = 0 then 100 else 100 - 100 / (1 + totalRise xs / totalFall xs) := by
  have hp' : (p : ℚ) ≠ 0 := Nat.cast_ne_zero.2 (by omega)
  have hgain : average (xs.map rise) p = totalRise xs / p := by rw [average_eq, sum_map_rise]
  have hloss : average (xs.map fall) p = totalFall xs / p := by rw [average_eq, sum_map_fall]
  have hzero : Number.isZero (totalFall xs / p) = true ↔ totalFall xs = 0 := by
    rw [Number.isZero_iff, div_eq_zero_iff, or_iff_left hp']
  rw [strength, hgain, hloss]
  simp only [hzero, div_div_div_cancel_right₀ hp']
  rfl

theorem strength_of_no_fall (h : totalFall xs = 0) : strength p xs = 100 := by rw [strength_eq_ite hp, if_pos h]

/-- **Where something moves**, the strength index is the share of the rises in all movement. -/
theorem strength_of_moves (h : 0 < totalRise xs + totalFall xs) :
    strength p xs = 100 * totalRise xs / (totalRise xs + totalFall xs) := by
  rcases (totalFall_nonneg xs).eq_or_lt' with hfall | hfall
  · rw [hfall, add_zero] at h
    rw [strength_of_no_fall hp xs hfall, hfall, add_zero, mul_div_cancel_right₀ _ h.ne']
  · have hquotient : 1 + totalRise xs / totalFall xs = (totalRise xs + totalFall xs) / totalFall xs := by
      rw [add_div, div_self hfall.ne', add_comm]
    rw [strength_eq_ite hp, if_neg hfall.ne', hquotient, div_div_eq_mul_div, sub_eq_iff_eq_add, ← add_div, ← mul_add,
      mul_div_cancel_right₀ _ h.ne']

/-- **The strength index** depends on the rises and falls, and not on their number. -/
theorem strength_eq : strength p xs =
    if totalFall xs = 0 then 100 else 100 * totalRise xs / (totalRise xs + totalFall xs) := by
  split
  next h => exact strength_of_no_fall hp xs h
  next h => exact strength_of_moves hp xs (moves_pos h)

theorem strength_bounds : 0 ≤ strength p xs ∧ strength p xs ≤ 100 := by
  have hrise := totalRise_nonneg xs
  have hfall := totalFall_nonneg xs
  rw [strength_eq hp]
  split
  next h => norm_num
  next h =>
    rw [div_le_iff₀ (moves_pos h)]
    exact ⟨div_nonneg (by linarith) (moves_pos h).le, by linarith⟩

theorem strength_eq_hundred_iff : strength p xs = 100 ↔ totalFall xs = 0 := by
  rw [strength_eq hp]
  split
  next h => simp [h]
  next h => rw [div_eq_iff (moves_pos h).ne', mul_add, left_eq_add, mul_eq_zero, or_iff_right (by norm_num)]

theorem strength_eq_zero_iff : strength p xs = 0 ↔ totalFall xs ≠ 0 ∧ totalRise xs = 0 := by
  rw [strength_eq hp]
  split
  next h => simp [h]
  next h => simp [h, (moves_pos h).ne']

/-- The distance from 50 is in proportion to the difference of rises and falls. -/
theorem strength_sub_fifty (h : 0 < totalRise xs + totalFall xs) :
    strength p xs - 50 = 50 / (totalRise xs + totalFall xs) * (totalRise xs - totalFall xs) := by
  rw [strength_of_moves hp xs h]
  field_simp
  ring

/-- **The strength index is on the side of 50** on which the difference of rises and falls is of zero. -/
theorem strength_compare (h : 0 < totalRise xs + totalFall xs) :
    (50 < strength p xs ↔ 0 < totalRise xs - totalFall xs) ∧
      (strength p xs = 50 ↔ totalRise xs - totalFall xs = 0) ∧
      (strength p xs < 50 ↔ totalRise xs - totalFall xs < 0) := by
  have hfactor : 0 < 50 / (totalRise xs + totalFall xs) := div_pos (by norm_num) h
  rw [← sub_pos, ← sub_eq_zero, ← sub_neg (b := (50 : ℚ)), strength_sub_fifty hp xs h]
  refine ⟨mul_pos_iff_of_pos_left hfactor, mul_eq_zero_iff_left hfactor.ne', ?_⟩
  rw [← neg_pos, ← mul_neg, mul_pos_iff_of_pos_left hfactor, neg_pos]

end Strength

/-! ## Changes of a window -/

section Changes

/-- **Changes telescope.** -/
theorem sum_changes {xs : List ℚ} {first last : ℚ} (hfirst : xs.head? = some first) (hlast : xs.getLast? = some last) :
    (changes xs).sum = last - first := by
  -- on the list: the first value moves on, the last stays
  induction xs generalizing first with
  | nil => cases hfirst
  | cons x xs ih =>
    cases hfirst
    cases xs with
    | nil =>
      cases hlast
      exact (sub_self x).symm
    | cons y xs =>
      have hstep : changes (x :: y :: xs) = (y - x) :: changes (y :: xs) := rfl
      rw [List.getLast?_cons_cons] at hlast
      rw [hstep, List.sum_cons, ih rfl hlast]
      ring

/-- The changes of neighbours in a list are those of the neighbours in a part of it. -/
theorem changes_take_drop (xs : List ℚ) (start size : ℕ) :
    ((changes xs).drop start).take size = changes ((xs.drop start).take (size + 1)) := by
  refine List.ext_getElem ?_ fun i hi hi' => ?_
  · simp only [List.length_take, List.length_drop, length_changes]
    omega
  · simp [changes, Nat.add_assoc]

end Changes

/-! ## Points -/

section Points

variable {s : Series ℚ} {p k : ℕ} {o : Observation ℚ}

/-- **A point of the strength index** is that of the changes between the `p + 1` present values that end at its
label. -/
theorem strengthIndex_window (h : (strengthIndex s p).observation? k = some o) :
    (s.window k (p + 1)).length = p + 1 ∧ (s.window k (p + 1)).getLast?.map Prod.fst = some o.date ∧
      o.value = some (strength p (changes ((s.window k (p + 1)).map Prod.snd))) := by
  rw [strengthIndex, observation?_windows] at h
  obtain ⟨point, hpoint, hk, rfl⟩ := h
  have hcount := (List.getElem?_eq_some_iff.1 hpoint).1
  rw [length_points] at hcount
  rw [Nat.add_comm] at hpoint
  exact ⟨length_window (by omega), by rw [last_window (by omega) hpoint]; rfl,
    by rw [values_window, changes_take_drop]⟩

/-- **The point of the momentum** where a window ends is the sum of the changes in it. -/
theorem momentum_window (hlength : (s.window k (p + 1)).length = p + 1) {date : String}
    (hlast : (s.window k (p + 1)).getLast?.map Prod.fst = some date) :
    (momentum s p).observation? k = some ⟨date, some (changes ((s.window k (p + 1)).map Prod.snd)).sum⟩ := by
  have hcount : k + p < s.points.length := by
    rw [Series.window, List.length_take, List.length_drop] at hlength
    omega
  have hfirst : (s.window k (p + 1)).head? = some s.points[k] := by
    rw [Series.window, List.head?_take, if_neg (Nat.succ_ne_zero p), List.head?_drop, List.getElem?_eq_getElem]
  rw [last_window (Nat.le_add_left 1 p) (List.getElem?_eq_getElem hcount)] at hlast
  cases hlast
  have hsum : (changes ((s.window k (p + 1)).map Prod.snd)).sum = s.points[k + p].2 - s.points[k].2 :=
    sum_changes (by rw [List.head?_map, hfirst]; rfl)
      (by rw [List.getLast?_map, last_window (Nat.le_add_left 1 p) (List.getElem?_eq_getElem hcount)]; rfl)
  rw [hsum]
  have hlater : (s.points.drop p)[k]? = some s.points[k + p] := by
    rw [List.getElem?_drop, Nat.add_comm, List.getElem?_eq_getElem]
  have hearlier : s.points[k]? = some s.points[k] := List.getElem?_eq_getElem _
  simp only [momentum, lagged, Series.ofPairs, Series.observation?, List.getElem?_map, List.getElem?_zipWith, hlater,
    hearlier, Option.map_some]

theorem length_strengthIndex (s : Series ℚ) (hp : 1 ≤ p) : (strengthIndex s p).length = s.countPresent - p := by
  simp only [strengthIndex, Series.length, Series.ofPairs, List.length_map, List.length_zipWith, List.length_drop,
    length_windows, length_changes, length_points, ← s.countPresent_eq]
  omega

end Points

/-- **The strength index lies between 0 and 100**, and tells the direction of the momentum. It has a point for each
present observation but the first `p`. Each point comes from the changes between the `p + 1` present values that end at
its label: it is the share of the rises in all movement, 100 exactly if there is no fall, and 0 exactly if there is a
fall and no rise. The momentum has in the same place the difference of rises and falls, and its sign says on which side
of 50 the index is. -/
theorem strengthIndex_bounds (s : Series ℚ) {p : ℕ} (hp : 1 ≤ p) :
    (strengthIndex s p).length = s.countPresent - p ∧
      ∀ k o, (strengthIndex s p).observation? k = some o →
        let moves := changes ((s.window k (p + 1)).map Prod.snd)
        let gain := totalRise moves
        let loss := totalFall moves
        ((s.window k (p + 1)).length = p + 1 ∧ (s.window k (p + 1)).getLast?.map Prod.fst = some o.date) ∧
          (∃ value, o.value = some value ∧ value = (if loss = 0 then 100 else 100 * gain / (gain + loss)) ∧
            (0 ≤ value ∧ value ≤ 100) ∧ (value = 100 ↔ ∀ x ∈ moves, 0 ≤ x) ∧
            (value = 0 ↔ (∃ x ∈ moves, x < 0) ∧ ∀ x ∈ moves, x ≤ 0) ∧
            (0 < gain + loss → (50 < value ↔ 0 < gain - loss) ∧ (value = 50 ↔ gain - loss = 0) ∧
              (value < 50 ↔ gain - loss < 0))) ∧
          (momentum s p).observation? k = some ⟨o.date, some (gain - loss)⟩ := by
  refine ⟨length_strengthIndex s hp, ?_⟩
  intro k o ho moves gain loss
  obtain ⟨hlength, hlast, hvalue⟩ := strengthIndex_window ho
  have hfall : loss ≠ 0 ↔ ∃ x ∈ moves, x < 0 := by
    rw [ne_eq, totalFall_eq_zero_iff]
    simp only [not_forall, not_le, exists_prop]
  refine ⟨⟨hlength, hlast⟩, ⟨_, hvalue, strength_eq hp moves, strength_bounds hp moves, ?_, ?_,
    strength_compare hp moves⟩, ?_⟩
  · rw [strength_eq_hundred_iff hp, totalFall_eq_zero_iff]
  · rw [strength_eq_zero_iff hp, ← totalRise_eq_zero_iff, ← hfall]
  · rw [totalRise_sub_totalFall]
    exact momentum_window hlength hlast

/-- The second window of two changes, with a rise and a greater fall; the missing value is passed over. -/
theorem strengthIndex_bounds_gap :
    let s : Series ℚ := ⟨"gdp", [⟨"2020-01-01", some 1⟩, ⟨"2020-02-01", some 4⟩, ⟨"2020-03-01", none⟩,
      ⟨"2020-04-01", some 5⟩, ⟨"2020-05-01", some 2⟩]⟩
    1 ≤ 2 ∧ (strengthIndex s 2).observation? 1 = some ⟨"2020-05-01", some 25⟩ ∧
      totalRise (changes ((s.window 1 3).map Prod.snd)) = 1 ∧ totalFall (changes ((s.window 1 3).map Prod.snd)) = 3 ∧
      (s.window 1 3).getLast?.map Prod.fst = some "2020-05-01" ∧
      (momentum s 2).observation? 1 = some ⟨"2020-05-01", some (-2)⟩ := by
  intro s
  have hvalue : (strengthIndex s 2).observation? 1 = some ⟨"2020-05-01", some 25⟩ := by decide +kernel
  have hgain : totalRise (changes ((s.window 1 3).map Prod.snd)) = 1 := by decide +kernel
  have hloss : totalFall (changes ((s.window 1 3).map Prod.snd)) = 3 := by decide +kernel
  obtain ⟨⟨-, hlast⟩, -, hmomentum⟩ := (strengthIndex_bounds s (show 1 ≤ 2 by decide)).2 1 _ hvalue
  rw [hgain, hloss] at hmomentum
  exact ⟨by decide, hvalue, hgain, hloss, hlast, hmomentum.trans (by decide +kernel)⟩

end SeriesFormula.Statistics
