import SeriesFormula.Proofs.Statistics.LookBack
import SeriesFormula.Statistics.Correlation
import SeriesFormula.Statistics.Regression

/-!
# What the statistics depend on

A statistic sees the present values of a series, and neither its missing values nor the texts of its labels.

- the aggregates and the correlation are the same for series with the same present values (`sum_congr` and so on);
- a function that gives a series is `Pointwise` if it computes at most one value for each present observation, from the
  present values alone, and puts it at the label of that observation. All five are (`pointwise_rateOfChange` and so on);
- the labels of a pointwise result are labels of present observations, in order (`Pointwise.labels`), and none of its
  values is missing (`Pointwise.present`);
- a pointwise function of a series whose missing values are dropped and whose labels are replaced gives the same values
  with their labels replaced (`Pointwise.stripped`).
-/

namespace SeriesFormula

variable {α β γ : Type}

/-! ## Series with other labels -/

namespace Series

/-- The series with each label replaced by its image. -/
def relabel (φ : String → String) (s : Series α) : Series α :=
  { s with observations := s.observations.map fun o => { o with date := φ o.date } }

/-- The present observations of a series with each label replaced by its image. -/
def stripped (φ : String → String) (s : Series α) : Series α := s.present.relabel φ

/-- The labels of the present observations are those of the points. -/
theorem labels_present (s : Series α) : s.present.index.labels = s.points.map Prod.fst := by
  obtain ⟨name, observations⟩ := s
  simp only [present, points, index]
  induction observations with
  | nil => rfl
  | cons o observations ih => cases h : o.value <;> simp [h, ih]

theorem points_stripped (φ : String → String) (s : Series α) :
    (s.stripped φ).points = s.points.map (Prod.map φ id) := by
  obtain ⟨name, observations⟩ := s
  simp only [stripped, relabel, present, points]
  induction observations with
  | nil => rfl
  | cons o observations ih => cases h : o.value <;> simp [h, ih]

theorem numbers_stripped (φ : String → String) (s : Series α) : (s.stripped φ).numbers = s.numbers := by
  rw [Statistics.numbers_eq_points, points_stripped, List.map_map, Statistics.numbers_eq_points]
  rfl

theorem points_ofPairs (name : String) (pairs : List (String × α)) : (ofPairs name pairs).points = pairs := by
  simp [points, ofPairs]

/-- The present observations are those that the points make. -/
theorem present_eq_ofPairs (s : Series α) : s.present = ofPairs s.name s.points := by
  obtain ⟨name, observations⟩ := s
  simp only [present, ofPairs, points]
  congr 1
  induction observations with
  | nil => rfl
  | cons o observations ih =>
    obtain ⟨date, value⟩ := o
    cases value <;> simp [ih]

theorem present_ofPairs (name : String) (pairs : List (String × α)) :
    (ofPairs name pairs).present = ofPairs name pairs := by
  rw [present, ofPairs, List.filter_eq_self.2]
  rw [List.forall_mem_map]
  intro pair _
  rfl

theorem relabel_ofPairs (φ : String → String) (name : String) (pairs : List (String × α)) :
    (ofPairs name pairs).relabel φ = ofPairs name (pairs.map (Prod.map φ id)) := by
  simp [relabel, ofPairs]

/-- As many observations are present as there are present values. -/
theorem countPresent_eq (s : Series α) : s.countPresent = s.numbers.length := by
  obtain ⟨name, observations⟩ := s
  simp only [countPresent, numbers]
  induction observations with
  | nil => rfl
  | cons o observations ih => cases h : o.value <;> simp [h, ih]

end Series

namespace Statistics

/-! ## Values at points -/

/-- The values that there are, each at the label of the point in its place. -/
def attach (points : List (String × α)) (values : List (Option β)) : List (String × β) :=
  (points.zip values).filterMap fun (point, v) => v.map (point.1, ·)

@[simp]
theorem attach_nil_left (values : List (Option β)) : attach ([] : List (String × α)) values = [] := rfl

@[simp]
theorem attach_nil_right (points : List (String × α)) : attach points ([] : List (Option β)) = [] := by
  simp [attach]

@[simp]
theorem attach_cons (point : String × α) (points : List (String × α)) (v : Option β) (values : List (Option β)) :
    attach (point :: points) (v :: values) = (v.map (point.1, ·)).toList ++ attach points values := by
  cases v <;> rfl

/-- Values are put at labels of points, in their order. -/
theorem labels_attach (points : List (String × α)) (values : List (Option β)) :
    ((attach points values).map Prod.fst).Sublist (points.map Prod.fst) := by
  induction points generalizing values with
  | nil => exact List.Sublist.slnil
  | cons point points ih =>
    cases values with
    | nil => exact List.nil_sublist _
    | cons v values =>
      rw [attach_cons]
      cases v with
      | none => exact (ih values).cons _
      | some v => exact (ih values).cons_cons _

/-- The values do not depend on the labels. -/
theorem attach_map (φ : String → String) (points : List (String × α)) (values : List (Option β)) :
    attach (points.map (Prod.map φ id)) values = (attach points values).map (Prod.map φ id) := by
  induction points generalizing values with
  | nil => rfl
  | cons point points ih =>
    cases values with
    | nil => simp
    | cons v values => cases v <;> simp [ih]

/-- The first points have no value. -/
theorem attach_drop (k : Nat) (points : List (String × α)) (values : List (Option β)) :
    attach points (List.replicate k none ++ values) = attach (points.drop k) values := by
  induction k generalizing points with
  | zero => rfl
  | succ k ih =>
    cases points with
    | nil => rfl
    | cons point points => exact ih points

/-- Each value is computed from one member of a list beside the points. -/
theorem attach_some (g : γ → β) (points : List (String × α)) (ws : List γ) :
    attach points (ws.map fun w => some (g w)) = List.zipWith (fun point w => (point.1, g w)) points ws := by
  induction points generalizing ws with
  | nil => rfl
  | cons point points ih =>
    cases ws with
    | nil => simp
    | cons w ws => simp [ih]

/-- Each value is computed from two values, and put at the label of the second. -/
theorem attach_zipWith (g : α → α → Option β) (xs ys : List (String × α)) :
    attach ys (List.zipWith g (xs.map Prod.snd) (ys.map Prod.snd)) =
      (List.zipWith (fun x y => (y.1, x.2, y.2)) xs ys).filterMap fun (date, earlier, later) =>
        (g earlier later).map (date, ·) := by
  induction xs generalizing ys with
  | nil => simp
  | cons x xs ih =>
    cases ys with
    | nil => rfl
    | cons y ys =>
      rw [List.map_cons, List.map_cons, List.zipWith_cons_cons, List.zipWith_cons_cons, attach_cons, ih]
      cases h : g x.2 y.2 <;> simp [h]

/-- Each value is computed from the step of its point. -/
theorem attach_range' (g : Nat → β) (points : List (String × α)) (k : Nat) :
    attach points ((List.range' k points.length).map fun step => some (g step)) =
      (points.zipIdx k).map fun (point, step) => (point.1, g step) := by
  induction points generalizing k with
  | nil => rfl
  | cons point points ih =>
    rw [List.length_cons, List.range'_succ, List.zipIdx_cons, List.map_cons, List.map_cons, attach_cons, ih]
    rfl

/-! ## Pointwise functions -/

/-- The function gives at most one value for each present observation, computed from the present values alone, at the
label of that observation; and the name of the result is made of the name of the series. -/
def Pointwise (F : Series α → Series α) : Prop :=
  ∃ (name : String → String) (values : List α → List (Option α)),
    ∀ s, F s = .ofPairs (name s.name) (attach s.points (values s.numbers))

namespace Pointwise

variable {F : Series α → Series α}

/-- **The result stands at labels of present observations**, in their order. -/
theorem labels (h : Pointwise F) (s : Series α) : (F s).index.labels.Sublist s.present.index.labels := by
  obtain ⟨name, values, hF⟩ := h
  rw [hF, Series.index, labels_ofPairs, Series.labels_present]
  exact labels_attach s.points (values s.numbers)

/-- No value of the result is missing. -/
theorem present (h : Pointwise F) (s : Series α) : (F s).present = F s := by
  obtain ⟨name, values, hF⟩ := h
  rw [hF, Series.present_ofPairs]

/-- **Missing values and the texts of labels do not count**: without the former and with other texts for the latter, the
result is the same with these texts. -/
theorem stripped (h : Pointwise F) (φ : String → String) (s : Series α) : F (s.stripped φ) = (F s).stripped φ := by
  have hpresent : (F s).stripped φ = (F s).relabel φ := by rw [Series.stripped, h.present s]
  obtain ⟨name, values, hF⟩ := h
  rw [hpresent, hF, hF, Series.relabel_ofPairs, Series.points_stripped, Series.numbers_stripped, attach_map]
  rfl

end Pointwise

/-- What is computed from two values `p` apart is pointwise. -/
theorem pointwise_lagged {F : Series α → Series α} (p : Nat) (name : String → String) (g : α → α → Option α)
    (hF : ∀ s, F s = .ofPairs (name s.name) ((lagged p s).filterMap fun (date, earlier, later) =>
      (g earlier later).map (date, ·))) : Pointwise F := by
  refine ⟨name, fun xs => List.replicate p none ++ List.zipWith g xs (xs.drop p), ?_⟩
  intro s
  rw [hF, attach_drop, numbers_eq_points, ← List.map_drop, attach_zipWith]
  rfl

/-! ## The functions -/

variable [Number α]

theorem sum_congr {s t : Series α} (h : s.numbers = t.numbers) : sum s = sum t := by rw [sum, sum, h]

theorem mean_congr {s t : Series α} (h : s.numbers = t.numbers) : mean s = mean t := by
  rw [mean, mean, Series.countPresent_eq, Series.countPresent_eq, h]

theorem least_congr {s t : Series α} (h : s.numbers = t.numbers) : least s = least t := by rw [least, least, h]

theorem greatest_congr {s t : Series α} (h : s.numbers = t.numbers) : greatest s = greatest t := by
  rw [greatest, greatest, h]

theorem count_congr {s t : Series α} (h : s.numbers = t.numbers) : count s = count t := by
  rw [count, count, Series.countPresent_eq, Series.countPresent_eq, h]

theorem correlation_congr {s s' t t' : Series α} (hs : s.numbers = s'.numbers) (ht : t.numbers = t'.numbers) :
    correlation s t = correlation s' t' := by
  rw [correlation, correlation, hs, ht]

theorem pointwise_rateOfChange (p : Nat) : Pointwise fun s : Series α => rateOfChange s p := by
  apply pointwise_lagged p (fun name => s!"ROC({name},{p})") fun earlier later =>
    if Number.isZero earlier then none else some ((later - earlier) / earlier * Number.ofNat 100)
  intro s
  dsimp only
  rw [rateOfChange, derivedName]
  congr 2
  funext (date, earlier, later)
  dsimp only
  split <;> rfl

theorem pointwise_momentum (p : Nat) : Pointwise fun s : Series α => momentum s p := by
  apply pointwise_lagged p (fun name => s!"MOMENTUM({name},{p})") fun earlier later => some (later - earlier)
  intro s
  dsimp only
  rw [momentum, derivedName, ← List.filterMap_eq_map]
  rfl

theorem pointwise_movingAverage (p : Nat) : Pointwise fun s : Series α => movingAverage s p := by
  refine ⟨fun name => s!"MA({name},{p})",
    fun xs => List.replicate (p - 1) none ++ (windows p xs).map fun window => some (average window p), ?_⟩
  intro s
  rw [attach_drop, attach_some]
  rfl

theorem pointwise_strengthIndex (p : Nat) : Pointwise fun s : Series α => strengthIndex s p := by
  refine ⟨fun name => s!"RSI({name},{p})",
    fun xs => List.replicate p none ++ (windows p (changes xs)).map fun window => some (strength p window), ?_⟩
  intro s
  rw [attach_drop, attach_some]
  rfl

theorem pointwise_regression : Pointwise (regression (α := α)) := by
  refine ⟨fun name => s!"REGRESSION({name})", fun xs => (fitLinear xs).elim [] fun fit =>
    (List.range' 1 xs.length).map fun step => some (fit.predict (Number.ofNat step)), ?_⟩
  intro s
  have hlen : s.numbers.length = s.points.length := by rw [numbers_eq_points, List.length_map]
  dsimp only
  rw [regression, hlen]
  congr 1
  cases fitLinear s.numbers with
  | none => simp
  | some fit => exact (attach_range' (fun step => fit.predict (Number.ofNat step)) s.points 1).symm

end Statistics

end SeriesFormula
