import Mathlib.Order.Bounds.Basic
import SeriesFormula.Proofs.Statistics.Exact
import SeriesFormula.Proofs.Statistics.Pointwise

/-!
# Averages stay inside their data

Over exact numbers the least and the greatest value are bounds of all present values and among them, and an average of
values lies between the least and the greatest of them (`isLeast_reduce`, `average_between`).

- each point of a moving average is the average of the `p` present values that end at its label
  (`movingAverage_window`), so it lies between two of them;
- the average over all present values is the mean, at the last present label (`movingAverage_countPresent`).
-/

namespace SeriesFormula

/-- The present observations from position `start` on, `size` of them if there are as many. -/
def Series.window {α : Type} (s : Series α) (start size : ℕ) : List (String × α) := (s.points.drop start).take size

namespace Statistics

/-! ## Windows of points -/

section Windows

variable {α β : Type} {s : Series α} {start size k : ℕ}

theorem mem_numbers_iff {v : α} : v ∈ s.numbers ↔ ∃ k o, s.observation? k = some o ∧ o.value = some v := by
  rw [Series.numbers, List.mem_filterMap]
  constructor
  · rintro ⟨o, ho, hv⟩
    obtain ⟨k, hk⟩ := List.mem_iff_getElem?.1 ho
    exact ⟨k, o, hk, hv⟩
  · rintro ⟨k, o, hk, hv⟩
    exact ⟨o, List.mem_of_getElem? hk, hv⟩

theorem length_points (s : Series α) : s.points.length = s.countPresent := by
  rw [s.countPresent_eq, numbers_eq_points, List.length_map]

theorem values_window : (s.window start size).map Prod.snd = (s.numbers.drop start).take size := by
  rw [Series.window, List.map_take, List.map_drop, numbers_eq_points]

theorem length_window (h : start + size ≤ s.countPresent) : (s.window start size).length = size := by
  rw [Series.window, List.length_take, List.length_drop, length_points]
  omega

/-- The label of a window's last observation. -/
theorem last_window {point : String × α} (hsize : 1 ≤ size) (h : s.points[start + (size - 1)]? = some point) :
    (s.window start size).getLast? = some point := by
  have hcount : start + (size - 1) < s.points.length := (List.getElem?_eq_some_iff.1 h).1
  have hlen : (s.window start size).length = size := length_window (by rw [← length_points]; omega)
  rw [List.getLast?_eq_getElem?, hlen, Series.window, List.getElem?_take_of_lt (by omega), List.getElem?_drop, h]

theorem getElem?_windows {p : ℕ} {xs window : List β} :
    (windows p xs)[k]? = some window ↔ k + p ≤ xs.length ∧ window = (xs.drop k).take p := by
  rw [windows, List.getElem?_map, Option.map_eq_some_iff]
  constructor
  · rintro ⟨start, hstart, rfl⟩
    obtain ⟨hk, rfl⟩ := List.getElem?_eq_some_iff.1 hstart
    rw [List.length_range] at hk
    rw [List.getElem_range]
    exact ⟨by omega, rfl⟩
  · rintro ⟨hk, rfl⟩
    exact ⟨k, List.getElem?_range (by omega), rfl⟩

/-- The points of a list that has a value for each `p` neighbours, put at the labels from position `first` on. -/
theorem observation?_windows {name : String} {points : List (String × α)} {xs : List β} {f : List β → α}
    {first p : ℕ} {o : Observation α} :
    (Series.ofPairs name (List.zipWith (fun (date, _) window => (date, f window)) (points.drop first)
      (windows p xs))).observation? k = some o ↔
    ∃ point, points[first + k]? = some point ∧ k + p ≤ xs.length ∧ o = ⟨point.1, some (f ((xs.drop k).take p))⟩ := by
  simp only [Series.observation?, Series.ofPairs, List.getElem?_map, Option.map_eq_some_iff,
    List.getElem?_zipWith_eq_some, List.getElem?_drop, getElem?_windows]
  constructor
  · rintro ⟨-, ⟨point, window, hpoint, ⟨hk, rfl⟩, rfl⟩, rfl⟩
    exact ⟨point, hpoint, hk, rfl⟩
  · rintro ⟨point, hpoint, hk, rfl⟩
    exact ⟨_, ⟨point, _, hpoint, ⟨hk, rfl⟩, rfl⟩, rfl⟩

end Windows

/-! ## Bounds -/

/-- **What a choice between two values leaves of a list** is one of its values, and related to all of them. -/
theorem reduce_spec {f : ℚ → ℚ → ℚ} {r : ℚ → ℚ → Prop} [IsPreorder ℚ r] (hchoice : ∀ x y, f x y = x ∨ f x y = y)
    (hleft : ∀ x y, r (f x y) x) (hright : ∀ x y, r (f x y) y) {xs : List ℚ} (h : xs ≠ []) :
    reduce f xs ∈ xs ∧ ∀ x ∈ xs, r (reduce f xs) x := by
  obtain ⟨x, xs, rfl⟩ := List.exists_cons_of_ne_nil h
  clear h
  simp only [reduce]
  -- the value that the fold starts from is what has been left of the values before
  induction xs generalizing x with
  | nil => simpa using refl_of r x
  | cons y xs ih =>
    obtain ⟨hmem, hbound⟩ := ih (f x y)
    rw [List.foldl_cons]
    rw [List.forall_mem_cons] at hbound
    constructor
    · rcases List.mem_cons.1 hmem with heq | hmem
      · rw [heq]
        rcases hchoice x y with hx | hy
        · simp [hx]
        · simp [hy]
      · exact List.mem_cons_of_mem _ (List.mem_cons_of_mem _ hmem)
    · rw [List.forall_mem_cons, List.forall_mem_cons]
      exact ⟨trans_of r hbound.1 (hleft x y), trans_of r hbound.1 (hright x y), hbound.2⟩

theorem isLeast_reduce {xs : List ℚ} (h : xs ≠ []) : IsLeast {v | v ∈ xs} (reduce Number.lesser xs) :=
  reduce_spec (r := (· ≤ ·)) min_choice min_le_left min_le_right h

theorem isGreatest_reduce {xs : List ℚ} (h : xs ≠ []) : IsGreatest {v | v ∈ xs} (reduce Number.greater xs) :=
  reduce_spec (r := (· ≥ ·)) max_choice le_max_left le_max_right h

/-- **The average of values lies between any bounds of them.** -/
theorem average_between {xs : List ℚ} (h : xs ≠ []) {lo hi : ℚ} (hbounds : ∀ v ∈ xs, lo ≤ v ∧ v ≤ hi) :
    lo ≤ average xs xs.length ∧ average xs xs.length ≤ hi := by
  have hlength : (0 : ℚ) < xs.length := Nat.cast_pos.2 (List.length_pos_iff.2 h)
  have hlo := xs.card_nsmul_le_sum lo fun v hv => (hbounds v hv).1
  have hhi := xs.sum_le_card_nsmul hi fun v hv => (hbounds v hv).2
  rw [nsmul_eq_mul] at hlo hhi
  rw [average_eq, le_div_iff₀' hlength, div_le_iff₀' hlength]
  exact ⟨hlo, hhi⟩

/-! ## Aggregates of present values -/

section Aggregates

variable {s : Series ℚ} (hs : 0 < s.countPresent)
include hs

theorem numbers_ne_nil : s.numbers ≠ [] := by
  rw [s.countPresent_eq] at hs
  exact List.length_pos_iff.1 hs

theorem isLeast_least : IsLeast {v | v ∈ s.numbers} (least s) := isLeast_reduce (numbers_ne_nil hs)

theorem isGreatest_greatest : IsGreatest {v | v ∈ s.numbers} (greatest s) := isGreatest_reduce (numbers_ne_nil hs)

theorem mean_eq_average : mean s = average s.numbers s.numbers.length := by
  rw [mean, if_neg hs.ne', s.countPresent_eq]

theorem mean_between : least s ≤ mean s ∧ mean s ≤ greatest s := by
  rw [mean_eq_average hs]
  exact average_between (numbers_ne_nil hs) fun v hv => ⟨(isLeast_least hs).2 hv, (isGreatest_greatest hs).2 hv⟩

theorem mean_mul_count : mean s * count s = sum s := by
  have hcount : (s.countPresent : ℚ) ≠ 0 := Nat.cast_ne_zero.2 hs.ne'
  rw [mean, if_neg hs.ne', average_eq, sum, total_eq_sum]
  exact div_mul_cancel₀ s.numbers.sum hcount

end Aggregates

/-! ## Moving averages -/

section MovingAverage

variable {s : Series ℚ} {p : ℕ}

/-- **A point of a moving average** is the average of the `p` present values that end at its label. -/
theorem movingAverage_window (hp : 1 ≤ p) {k : ℕ} {o : Observation ℚ}
    (h : (movingAverage s p).observation? k = some o) :
    (s.window k p).length = p ∧ (s.window k p).getLast?.map Prod.fst = some o.date ∧
      o.value = some (average ((s.window k p).map Prod.snd) p) := by
  rw [movingAverage, observation?_windows] at h
  obtain ⟨point, hpoint, hk, rfl⟩ := h
  rw [← s.countPresent_eq] at hk
  rw [Nat.add_comm] at hpoint
  exact ⟨length_window hk, by rw [last_window hp hpoint]; rfl, by rw [values_window]⟩

/-- A point of a moving average lies between the least and the greatest value of its window. -/
theorem movingAverage_between (hp : 1 ≤ p) {k : ℕ} {o : Observation ℚ}
    (h : (movingAverage s p).observation? k = some o) :
    ∃ value lo hi, o.value = some value ∧ IsLeast {v | v ∈ (s.window k p).map Prod.snd} lo ∧
      IsGreatest {v | v ∈ (s.window k p).map Prod.snd} hi ∧ lo ≤ value ∧ value ≤ hi := by
  obtain ⟨hlength, -, hvalue⟩ := movingAverage_window hp h
  have hvalues : ((s.window k p).map Prod.snd).length = p := List.length_map _ |>.trans hlength
  have hne : (s.window k p).map Prod.snd ≠ [] := List.length_pos_iff.1 (by omega)
  have hlo := isLeast_reduce hne
  have hhi := isGreatest_reduce hne
  have hbetween := average_between hne fun v hv => ⟨hlo.2 hv, hhi.2 hv⟩
  rw [hvalues] at hbetween
  exact ⟨_, _, _, hvalue, hlo, hhi, hbetween⟩

theorem movingAverage_bounds (hs : 0 < s.countPresent) (hp : 1 ≤ p) {v : ℚ} (hv : v ∈ (movingAverage s p).numbers) :
    least s ≤ v ∧ v ≤ greatest s := by
  obtain ⟨k, o, ho, hvalue⟩ := mem_numbers_iff.1 hv
  obtain ⟨value, lo, hi, hvalue', hlo, hhi, hbetween⟩ := movingAverage_between hp ho
  rw [hvalue', Option.some.injEq] at hvalue
  subst hvalue
  have hmem : ∀ {v}, v ∈ (s.window k p).map Prod.snd → v ∈ s.numbers := fun hv => by
    rw [values_window] at hv
    exact List.mem_of_mem_drop (List.mem_of_mem_take hv)
  have hleast := (isLeast_least hs).2 (hmem hlo.1)
  have hgreatest := (isGreatest_greatest hs).2 (hmem hhi.1)
  exact ⟨hleast.trans hbetween.1, hbetween.2.trans hgreatest⟩

theorem countPresent_movingAverage (hp : 1 ≤ p) (h : (movingAverage s p).isEmpty = false) :
    0 < (movingAverage s p).countPresent := by
  obtain ⟨o, ho⟩ := List.exists_mem_of_ne_nil _ (List.isEmpty_eq_false_iff.1 h)
  obtain ⟨k, hk⟩ := List.mem_iff_getElem?.1 ho
  obtain ⟨-, -, hvalue⟩ := movingAverage_window hp hk
  rw [Series.countPresent_eq]
  exact List.length_pos_of_mem (mem_numbers_iff.2 ⟨k, o, hk, hvalue⟩)

/-- **The average over all present values** is the mean, at the last of their labels. -/
theorem movingAverage_countPresent (hs : 0 < s.countPresent) :
    ∃ date, s.points.getLast?.map Prod.fst = some date ∧
      (movingAverage s s.countPresent).observations = [⟨date, some (mean s)⟩] := by
  have hpoints : s.points ≠ [] := List.length_pos_iff.1 (length_points s ▸ hs)
  have hlast : s.points.drop (s.countPresent - 1) = [s.points.getLast hpoints] := by
    rw [← length_points, List.drop_length_sub_one hpoints]
  have hwindows : windows s.countPresent s.numbers = [s.numbers] := by
    simp [windows, s.countPresent_eq]
  refine ⟨_, congrArg (Option.map Prod.fst) (List.getLast?_eq_some_getLast hpoints), ?_⟩
  rw [movingAverage, hlast, hwindows, mean_eq_average hs, s.countPresent_eq]
  rfl

end MovingAverage

/-- **Averages stay inside their data.** For a series with a present value, the least and the greatest are present
values and bounds of them all, and the mean lies between; each point of a moving average lies between the least and the
greatest of the `p` present values that end at its label, so all of them lie inside the data of the series; and the
average over all present values is the mean, at the last present label. -/
theorem averages_within_data {s : Series ℚ} (hs : 0 < s.countPresent) :
    (IsLeast {v | v ∈ s.numbers} (least s) ∧ IsGreatest {v | v ∈ s.numbers} (greatest s)) ∧
      (least s ≤ mean s ∧ mean s ≤ greatest s ∧ mean s * count s = sum s) ∧
      (∀ p, 1 ≤ p →
        (∀ k o, (movingAverage s p).observation? k = some o →
          (s.window k p).length = p ∧ (s.window k p).getLast?.map Prod.fst = some o.date ∧
            ∃ value lo hi, o.value = some value ∧ IsLeast {v | v ∈ (s.window k p).map Prod.snd} lo ∧
              IsGreatest {v | v ∈ (s.window k p).map Prod.snd} hi ∧ lo ≤ value ∧ value ≤ hi) ∧
        ((movingAverage s p).isEmpty = false →
          least s ≤ least (movingAverage s p) ∧ greatest (movingAverage s p) ≤ greatest s)) ∧
      ∃ date, s.points.getLast?.map Prod.fst = some date ∧
        (movingAverage s s.countPresent).observations = [⟨date, some (mean s)⟩] := by
  obtain ⟨hlo, hhi⟩ := mean_between hs
  refine ⟨⟨isLeast_least hs, isGreatest_greatest hs⟩, ⟨hlo, hhi, mean_mul_count hs⟩, fun p hp => ⟨?_, ?_⟩,
    movingAverage_countPresent hs⟩
  · intro k o ho
    obtain ⟨hlength, hlast, -⟩ := movingAverage_window hp ho
    exact ⟨hlength, hlast, movingAverage_between hp ho⟩
  · intro hfull
    have hcount := countPresent_movingAverage hp hfull
    exact ⟨(movingAverage_bounds hs hp (isLeast_least hcount).1).1,
      (movingAverage_bounds hs hp (isGreatest_greatest hcount).1).2⟩

/-- Three present values and a missing one, averaged in pairs and all together. -/
theorem averages_within_data_gap :
    let s : Series ℚ := ⟨"gdp", [⟨"2020-01-01", some 2⟩, ⟨"2020-02-01", none⟩, ⟨"2020-03-01", some (-1)⟩,
      ⟨"2020-04-01", some 5⟩]⟩
    0 < s.countPresent ∧ 1 ≤ 2 ∧ (movingAverage s 2).isEmpty = false ∧ least s = -1 ∧ mean s = 2 ∧
      mean s * count s = 6 ∧ (movingAverage s 2).observation? 1 = some ⟨"2020-04-01", some 2⟩ ∧
      s.window 1 2 = [("2020-03-01", -1), ("2020-04-01", 5)] ∧
      (∃ value lo hi, some 2 = some value ∧ IsLeast {v | v ∈ (s.window 1 2).map Prod.snd} lo ∧
        IsGreatest {v | v ∈ (s.window 1 2).map Prod.snd} hi ∧ lo ≤ value ∧ value ≤ hi) ∧
      least s ≤ least (movingAverage s 2) ∧ least (movingAverage s 2) = 1 / 2 ∧
      (movingAverage s 3).observations = [⟨"2020-04-01", some (mean s)⟩] := by
  intro s
  have hs : 0 < s.countPresent := by decide
  have hfull : (movingAverage s 2).isEmpty = false := by decide
  have hpoint : (movingAverage s 2).observation? 1 = some ⟨"2020-04-01", some 2⟩ := by decide +kernel
  obtain ⟨-, ⟨-, -, hcount⟩, hmoving, date, hdate, hall⟩ := averages_within_data hs
  obtain ⟨hpoints, hbounds⟩ := hmoving 2 (by decide)
  have hlast : date = "2020-04-01" := by
    have : s.points.getLast?.map Prod.fst = some "2020-04-01" := by decide
    rw [this, Option.some.injEq] at hdate
    exact hdate.symm
  have hsum : sum s = 6 := by decide +kernel
  exact ⟨hs, by decide, hfull, by decide +kernel, by decide +kernel, hcount.trans hsum, hpoint, by decide +kernel,
    (hpoints 1 _ hpoint).2.2, (hbounds hfull).1, by decide +kernel, hlast ▸ hall⟩

end Statistics

end SeriesFormula
