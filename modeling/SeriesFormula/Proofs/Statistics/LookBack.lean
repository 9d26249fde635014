import Mathlib.Data.List.Infix
import SeriesFormula.Proofs.Series.Chronology
import SeriesFormula.Statistics.Indicator

/-!
# Indicators look back

A list that is computed from points is `Causal` if further points leave it as it is and add values at their own labels
only.

- windows and changes of a longer list go on from those of a shorter one (`windows_extend`, `changes_extend`), and what
  is zipped with them at the end of each window is causal (`causal_zipWith`);
- so each of the four indicators is computed from the points by a causal function (`looksBack_rateOfChange` and so on);
- an indicator of a series that is cut at a day is the indicator of the whole series, cut at that day
  (`LooksBack.within`), and its labels stay in order (`LooksBack.chronological`).
-/

namespace SeriesFormula.Statistics

variable {α β γ δ : Type}

/-! ## Lists that go on -/

theorem zipWith_extend (f : α → β → γ) {xs xs' : List α} {ys ys' : List β} (hx : xs <+: xs') (hy : ys <+: ys') :
    List.zipWith f xs ys <+: List.zipWith f xs' ys' := by
  refine List.prefix_iff_getElem?.2 fun i hi => ?_
  have hi' := hi
  rw [List.length_zipWith, Nat.lt_min] at hi'
  rw [List.getElem?_zipWith, List.prefix_iff_getElem?.1 hx i hi'.1, List.prefix_iff_getElem?.1 hy i hi'.2,
    List.getElem_zipWith]

/-- Windows of a longer list go on from those of a shorter one. -/
theorem windows_extend (p : Nat) {xs ys : List β} (h : xs <+: ys) : windows p xs <+: windows p ys := by
  obtain ⟨zs, rfl⟩ := h
  obtain ⟨more, hmore⟩ : ∃ more, (xs ++ zs).length + 1 - p = (xs.length + 1 - p) + more := by
    rw [List.length_append]
    exact ⟨xs.length + zs.length + 1 - p - (xs.length + 1 - p), by omega⟩
  unfold windows
  rw [hmore, List.range_add, List.map_append]
  refine ⟨_, congrArg (· ++ _) (List.map_congr_left fun start hstart => ?_)⟩
  rw [List.mem_range] at hstart
  rw [List.drop_append_of_le_length (by omega), List.take_append_of_le_length (by rw [List.length_drop]; omega)]

theorem length_windows (p : Nat) (xs : List β) : (windows p xs).length = xs.length + 1 - p := by
  rw [windows, List.length_map, List.length_range]

/-- Changes of a longer list go on from those of a shorter one. -/
theorem changes_extend [Number α] {xs ys : List α} (h : xs <+: ys) : changes xs <+: changes ys :=
  zipWith_extend _ h (by simpa using h.drop 1)

theorem length_changes [Number α] (xs : List α) : (changes xs).length = xs.length - 1 := by
  rw [changes, List.length_zipWith, List.length_tail]
  omega

/-- A longer first list is zipped with what the shorter one leaves of the second. -/
theorem zipWith_append_left (f : α → β → γ) (xs xs' : List α) (ys : List β) :
    List.zipWith f (xs ++ xs') ys = List.zipWith f xs ys ++ List.zipWith f xs' (ys.drop xs.length) := by
  induction xs generalizing ys with
  | nil => rfl
  | cons x xs ih =>
    cases ys with
    | nil => simp
    | cons y ys => simp [ih]

/-- What the second list has beyond the first does not matter. -/
theorem zipWith_of_prefix (f : α → β → γ) {xs : List α} {ys ys' : List β} (h : ys <+: ys')
    (hlen : xs.length ≤ ys.length) : List.zipWith f xs ys' = List.zipWith f xs ys := by
  refine ((zipWith_extend f (List.prefix_refl xs) h).eq_of_length ?_).symm
  have := h.length_le
  simp only [List.length_zipWith]
  omega

/-! ## Causal lists -/

/-- Further points leave the values that there are and add some at their own labels. -/
structure Causal (f : List (String × α) → List (String × β)) : Prop where
  nil : f [] = []
  append : ∀ xs ys, ∃ zs, f (xs ++ ys) = f xs ++ zs ∧ (zs.map Prod.fst).Sublist (ys.map Prod.fst)

/-- All values stand at labels of points. -/
theorem Causal.labels {f : List (String × α) → List (String × β)} (h : Causal f) (xs : List (String × α)) :
    ((f xs).map Prod.fst).Sublist (xs.map Prod.fst) := by
  obtain ⟨zs, hzs, hlabels⟩ := h.append [] xs
  rw [List.nil_append, h.nil, List.nil_append] at hzs
  rwa [hzs]

/-- What is zipped to points stands at their labels. -/
theorem labels_zipWith (g : String × α → γ → β) (points : List (String × α)) (values : List γ) :
    ((List.zipWith (fun point v => (point.1, g point v)) points values).map Prod.fst).Sublist
      (points.map Prod.fst) := by
  induction points generalizing values with
  | nil => exact List.Sublist.slnil
  | cons point points ih =>
    cases values with
    | nil => exact List.nil_sublist _
    | cons v values => exact (ih values).cons_cons _

theorem Causal.congr {f g : List (String × α) → List (String × β)} (h : Causal f) (hfg : ∀ points, g points = f points) :
    Causal g := by
  rwa [funext hfg]

/-- **Values zipped to the points from the `k`th on**, if they go on with the points and enough of them are there. -/
theorem causal_zipWith (k : Nat) (values : List (String × α) → List γ)
    (hextend : ∀ {xs ys}, xs <+: ys → values xs <+: values ys) (hlen : ∀ xs, xs.length - k ≤ (values xs).length)
    (g : String × α → γ → β) :
    Causal fun points => List.zipWith (fun point v => (point.1, g point v)) (points.drop k) (values points) where
  nil := by rw [List.drop_nil, List.zipWith_nil_left]
  append xs ys := by
    have hold : (xs.drop k).length ≤ (values xs).length := by
      rw [List.length_drop]
      exact hlen xs
    have hsplit := zipWith_append_left (fun point v => (point.1, g point v)) (xs.drop k) (ys.drop (k - xs.length))
      (values (xs ++ ys))
    rw [← List.drop_append, zipWith_of_prefix _ (hextend (List.prefix_append xs ys)) hold] at hsplit
    exact ⟨_, hsplit, (labels_zipWith g _ _).trans ((List.drop_sublist _ _).map _)⟩

/-- Values that keep their labels, some of which may be left out. -/
theorem Causal.filterMap {f : List (String × α) → List (String × β)} (h : Causal f)
    {g : String × β → Option (String × γ)} (hg : ∀ x y, g x = some y → y.1 = x.1) :
    Causal fun points => (f points).filterMap g where
  nil := by rw [h.nil, List.filterMap_nil]
  append xs ys := by
    obtain ⟨zs, hzs, hlabels⟩ := h.append xs ys
    refine ⟨zs.filterMap g, by rw [hzs, List.filterMap_append], List.Sublist.trans ?_ hlabels⟩
    clear hzs hlabels
    induction zs with
    | nil => exact List.Sublist.slnil
    | cons z zs ih =>
      rw [List.filterMap_cons]
      split
      · exact ih.cons _
      · rename_i y hy
        rw [List.map_cons, List.map_cons, hg z y hy]
        exact ih.cons_cons _

theorem Causal.map {f : List (String × α) → List (String × β)} (h : Causal f) {g : String × β → String × γ}
    (hg : ∀ x, (g x).1 = x.1) : Causal fun points => (f points).map g := by
  have hsome := h.filterMap (g := some ∘ g) (by rintro x _ ⟨⟩; exact hg x)
  simpa only [List.filterMap_eq_map] using hsome

/-! ## The indicators -/

/-- The result is made of the points by a causal function, and its name by the name of the series. -/
def LooksBack (F : Series α → Series α) : Prop :=
  ∃ (name : String → String) (f : List (String × α) → List (String × α)),
    Causal f ∧ ∀ s, F s = .ofPairs (name s.name) (f s.points)

theorem numbers_eq_points (s : Series α) : s.numbers = s.points.map Prod.snd := by
  rw [Series.numbers, Series.points, List.map_filterMap]
  congr 1
  funext o
  cases o.value <;> rfl

/-- The earlier of two values is there when the later one comes. -/
theorem causal_lagged (p : Nat) :
    Causal fun points : List (String × α) =>
      List.zipWith (fun (_, earlier) (date, later) => (date, earlier, later)) points (points.drop p) := by
  have h := causal_zipWith p (fun points : List (String × α) => points) (fun h => h) (fun _ => Nat.sub_le _ _)
    (fun later earlier => (earlier.2, later.2))
  exact h.congr fun _ => List.zipWith_comm ..

variable [Number α]

theorem looksBack_rateOfChange (p : Nat) : LooksBack fun s : Series α => rateOfChange s p := by
  refine ⟨fun name => s!"ROC({name},{p})", _, (causal_lagged p).filterMap ?_, fun s => rfl⟩
  rintro ⟨date, earlier, later⟩ y hy
  dsimp only at hy
  split at hy
  · cases hy
  · cases hy
    rfl

theorem looksBack_momentum (p : Nat) : LooksBack fun s : Series α => momentum s p :=
  ⟨fun name => s!"MOMENTUM({name},{p})", _,
    (causal_lagged p).map (g := fun x => (x.1, x.2.2 - x.2.1)) fun _ => rfl, fun _ => rfl⟩

theorem looksBack_movingAverage (p : Nat) : LooksBack fun s : Series α => movingAverage s p := by
  have h := causal_zipWith (p - 1) (fun points : List (String × α) => windows p (points.map Prod.snd))
    (fun h => windows_extend p (h.map _)) (fun points => by rw [length_windows, List.length_map]; omega)
    (fun _ window => average window p)
  refine ⟨fun name => s!"MA({name},{p})", _, h, fun s => ?_⟩
  dsimp only
  rw [movingAverage, numbers_eq_points]
  rfl

theorem looksBack_strengthIndex (p : Nat) : LooksBack fun s : Series α => strengthIndex s p := by
  have h := causal_zipWith p (fun points : List (String × α) => windows p (changes (points.map Prod.snd)))
    (fun h => windows_extend p (changes_extend (h.map _)))
    (fun points => by rw [length_windows, length_changes, List.length_map]; omega)
    (fun _ window => strength p window)
  refine ⟨fun name => s!"RSI({name},{p})", _, h, fun s => ?_⟩
  dsimp only
  rw [strengthIndex, numbers_eq_points]
  rfl

/-! ## Series that are cut at a day -/

omit [Number α]

/-- Points stand at labels of observations. -/
theorem labels_points (os : List (Observation α)) (name : String) :
    ((Series.mk name os).points.map Prod.fst).Sublist (os.map (·.date)) := by
  induction os with
  | nil => exact List.Sublist.slnil
  | cons o os ih =>
    unfold Series.points at ih ⊢
    rw [List.filterMap_cons]
    cases o.value with
    | none => exact ih.cons _
    | some v => exact ih.cons_cons _

theorem labels_ofPairs (name : String) (pairs : List (String × α)) :
    (Series.ofPairs name pairs).observations.map (·.date) = pairs.map Prod.fst := by
  rw [Series.ofPairs, List.map_map]
  rfl

namespace LooksBack

variable {F : Series α → Series α}

/-- The labels of the result are labels of the series. -/
theorem labels (h : LooksBack F) (s : Series α) : (F s).index.labels.Sublist s.index.labels := by
  obtain ⟨name, f, hf, hF⟩ := h
  rw [hF, Series.index, labels_ofPairs]
  exact (hf.labels s.points).trans (labels_points s.observations s.name)

/-- Labels in order stay in order. -/
theorem chronological (h : LooksBack F) {s : Series α} (hs : s.index.Chronological) : (F s).index.Chronological :=
  DateIndex.Chronological.sublist hs (h.labels s)

/-- **What comes later does not count**: the result for a series that is cut at a day is the result for the whole
series, cut at that day. -/
theorem within (h : LooksBack F) {s : Series α} (hs : s.index.Chronological) (stop : Date) :
    F (s.within (.upTo stop)) = (F s).within (.upTo stop) := by
  obtain ⟨name, os⟩ := s
  obtain ⟨kept, cut, rfl, hkept, hcut⟩ := Series.exists_cut stop hs
  obtain ⟨resultName, f, hf, hF⟩ := h
  obtain ⟨added, hadded, hlabels⟩ := hf.append (Series.mk name kept).points (Series.mk name cut).points
  have hpoints : (Series.mk name (kept ++ cut)).points = (Series.mk name kept).points ++ (Series.mk name cut).points :=
    List.filterMap_append
  have hresult : F ⟨name, kept ++ cut⟩ = ⟨resultName name, (F ⟨name, kept⟩).observations ++
      (Series.ofPairs name added).observations⟩ := by
    rw [hF, hpoints, hadded, hF, Series.ofPairs, List.map_append]
    rfl
  have hold : ((F ⟨name, kept⟩).observations.map (·.date)).Sublist (kept.map (·.date)) :=
    labels ⟨resultName, f, hf, hF⟩ ⟨name, kept⟩
  have hnew : ((Series.ofPairs name added).observations.map (·.date)).Sublist (cut.map (·.date)) := by
    rw [labels_ofPairs]
    exact hlabels.trans (labels_points cut name)
  rw [Series.within_append hkept hcut, hresult,
    Series.within_append (fun label hl => hkept label (hold.subset hl)) fun label hl => hcut label (hnew.subset hl), hF]
  rfl

end LooksBack

end SeriesFormula.Statistics
