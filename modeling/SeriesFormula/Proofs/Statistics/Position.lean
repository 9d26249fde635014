import SeriesFormula.Proofs.Statistics.Pointwise

/-!
# Indicators by positions

The present observations of a series are numbered from zero (`d j` the label and `v j` the value at position `j`).

- windows, changes and lagged values are lists over positions (`windows_range`, `changes_range`, `lagged_eq`), and so
  are the four indicators (`movingAverage_eq` and so on);
- each indicator is also computed by a loop that reads dates and values at positions, where each access and each sum or
  difference of positions may fail (`movingAverage?` and so on). None does (`indicators_by_position`).
-/

namespace SeriesFormula.Statistics

variable {α β γ δ : Type}

/-! ## Loops over positions -/

/-- The sum of two positions, unless it is above the largest position `top`. -/
def add? (top i j : Nat) : Option Nat := if i + j ≤ top then some (i + j) else none

/-- The difference of two positions, unless it is below zero. -/
def sub? (i j : Nat) : Option Nat := if j ≤ i then some (i - j) else none

/-- The entries from `first` to `last`, both included, if all are there. -/
def slice? (xs : List β) (first last : Nat) : Option (List β) :=
  if first ≤ last + 1 ∧ last < xs.length then some ((xs.drop first).take (last + 1 - first)) else none

/-- A value with the label at a position, if there is one. -/
def at? (points : List (String × α)) (position : Nat) (value : α) : Option (String × α) :=
  points[position]?.map fun point => (point.1, value)

/-- The value at a position, if there is one. -/
def value? (points : List (String × α)) (position : Nat) : Option α := points[position]?.map (·.2)

/-- The series of the values that the steps of a loop give; a step may give none, but must not fail. -/
def collect? (name : String) (xs : List β) (step : β → Option (Option (String × α))) : Option (Series α) :=
  (xs.mapM step).map fun pairs => .ofPairs name (pairs.filterMap id)

section

variable [Number α] (top : Nat) (s : Series α) (p : Nat)

/-- The loop over the values that have one `p` before them. -/
def lagged? (name : String) (f : α → α → Option α) : Option (Series α) :=
  if s.points.length ≤ p then some (.empty name)
  else collect? name (List.range' p (s.points.length - p)) fun i => do
    let prior ← value? s.points (← sub? i p)
    let value ← value? s.points i
    (f prior value).mapM (at? s.points i)

/-- The loop of the rate of change. -/
def rateOfChange? : Option (Series α) :=
  lagged? s p (derivedName "ROC" s p) fun prior value =>
    if Number.isZero prior then none else some ((value - prior) / prior * Number.ofNat 100)

/-- The loop of the momentum. -/
def momentum? : Option (Series α) := lagged? s p (derivedName "MOMENTUM" s p) fun prior value => some (value - prior)

/-- The mean of a window at the position where it ends. -/
def averageAt? (window : List α) (start : Nat) : Option (String × α) := do
  let position ← sub? (← add? top start p) 1
  at? s.points position (average window p)

/-- The loop of the moving average. -/
def movingAverage? : Option (Series α) :=
  if s.points.length < p then some (.empty (derivedName "MA" s p))
  else collect? (derivedName "MA" s p) (windows p s.numbers).zipIdx fun x => some <$> averageAt? top s p x.1 x.2

/-- The change between the two values of a window. -/
def change? (pair : List α) : Option α := do
  let later ← pair[1]?
  let earlier ← pair[0]?
  return later - earlier

/-- The strength index at the change `i`, which leads to the value behind it. -/
def strengthAt? (gains losses : List α) (i : Nat) : Option (String × α) := do
  let next ← add? top i 1
  let first ← sub? next p
  let gain := average (← slice? gains first i) p
  let loss := average (← slice? losses first i) p
  at? s.points next (if Number.isZero loss then Number.ofNat 100
    else Number.ofNat 100 - Number.ofNat 100 / (Number.ofNat 1 + gain / loss))

/-- The loop of the strength index, which goes over the changes. -/
def strengthIndex? : Option (Series α) :=
  if s.points.length ≤ p then some (.empty (derivedName "RSI" s p))
  else do
    let moves ← (windows 2 s.numbers).mapM change?
    let start ← sub? p 1
    collect? (derivedName "RSI" s p) (List.range' start (moves.length - start)) fun i =>
      some <$> strengthAt? top s p (moves.map rise) (moves.map fall) i

end

/-! ## Lists over positions -/

/-- The windows of a list over positions. -/
theorem windows_range (p n : Nat) (v : Nat → β) :
    windows p ((List.range n).map v) = (List.range (n + 1 - p)).map fun start => (List.range' start p).map v := by
  rw [windows, List.length_map, List.length_range]
  refine List.map_congr_left fun start hstart => ?_
  rw [List.mem_range] at hstart
  refine List.ext_getElem (by simp; omega) fun i hi hi' => ?_
  simp

/-- The changes of a list over positions. -/
theorem changes_range [Number α] (n : Nat) (v : Nat → α) :
    changes ((List.range n).map v) = (List.range (n - 1)).map fun i => v (i + 1) - v i := by
  refine List.ext_getElem (by simp [changes]) fun i hi hi' => ?_
  simp [changes]

theorem map_succ_range' (start n : Nat) : (List.range' start n).map (· + 1) = List.range' (start + 1) n := by
  simpa [Nat.add_comm] using List.map_add_range' (a := 1) start n 1

/-- A change is numbered by its first value or by its second. -/
theorem changes_range' [Number α] (v : Nat → α) (start n : Nat) :
    ((List.range' start n).map fun i => v (i + 1) - v i) =
      (List.range' (start + 1) n).map fun i => v i - v (i - 1) := by
  rw [← map_succ_range', List.map_map]
  rfl

theorem zipIdx_map_range (n : Nat) (g : Nat → β) :
    ((List.range n).map g).zipIdx = (List.range n).map fun i => (g i, i) := by
  refine List.ext_getElem (by simp) fun i hi hi' => ?_
  simp

/-! ## The indicators over positions -/

section

variable {s : Series α} {n : Nat} {d : Nat → String} {v : Nat → α}
  (hpoints : s.points = (List.range n).map fun j => (d j, v j))
include hpoints

theorem numbers_range : s.numbers = (List.range n).map v := by
  rw [numbers_eq_points, hpoints, List.map_map]
  rfl

/-- Each value with the one `p` before it. -/
theorem lagged_eq (p : Nat) : lagged p s = (List.range' p (n - p)).map fun j => (d j, v (j - p), v j) := by
  rw [lagged, hpoints]
  refine List.ext_getElem (by simp) fun i hi hi' => ?_
  simp

variable [Number α] (p : Nat)

theorem momentum_eq : momentum s p = .ofPairs (derivedName "MOMENTUM" s p)
    ((List.range' p (n - p)).map fun j => (d j, v j - v (j - p))) := by
  rw [momentum, lagged_eq hpoints, List.map_map]
  rfl

theorem rateOfChange_eq : rateOfChange s p = .ofPairs (derivedName "ROC" s p)
    ((List.range' p (n - p)).filterMap fun j => if Number.isZero (v (j - p)) then none
      else some (d j, (v j - v (j - p)) / v (j - p) * Number.ofNat 100)) := by
  rw [rateOfChange, lagged_eq hpoints, List.filterMap_map]
  rfl

theorem movingAverage_eq (hp : 1 ≤ p) : movingAverage s p = .ofPairs (derivedName "MA" s p)
    ((List.range' (p - 1) (n + 1 - p)).map fun j =>
      (d j, average ((List.range' (j + 1 - p) p).map v) p)) := by
  rw [movingAverage, hpoints, numbers_range hpoints, windows_range]
  congr 1
  refine List.ext_getElem (by simp; omega) fun i hi hi' => ?_
  have hstart : p - 1 + i + 1 - p = i := by omega
  simp [hstart]

theorem strengthIndex_eq (hp : 1 ≤ p) : strengthIndex s p = .ofPairs (derivedName "RSI" s p)
    ((List.range' p (n - p)).map fun j =>
      (d j, strength p ((List.range' (j + 1 - p) p).map fun i => v i - v (i - 1)))) := by
  rw [strengthIndex, hpoints, numbers_range hpoints, changes_range, windows_range]
  congr 1
  refine List.ext_getElem (by simp; omega) fun i hi hi' => ?_
  have hstart : p + i + 1 - p = i + 1 := by omega
  simp [hstart, changes_range']

end

/-! ## No loop fails -/

section

variable {n : Nat} {d : Nat → String} {v : Nat → α} {points : List (String × α)}
  (hpoints : points = (List.range n).map fun j => (d j, v j)) {j : Nat} (hj : j < n)
include hpoints hj

theorem value?_eq : value? points j = some (v j) := by simp [value?, hpoints, hj]

theorem at?_eq (x : α) : at? points j x = some (d j, x) := by simp [at?, hpoints, hj]

end

theorem add?_eq {top i j : Nat} (h : i + j ≤ top) : add? top i j = some (i + j) := if_pos h

theorem sub?_eq {i j : Nat} (h : j ≤ i) : sub? i j = some (i - j) := if_pos h

/-- Entries over positions, from the first to the last. -/
theorem slice?_range {n first last : Nat} (g : Nat → β) (hfirst : first ≤ last + 1) (hlast : last < n) :
    slice? ((List.range n).map g) first last = some ((List.range' first (last + 1 - first)).map g) := by
  rw [slice?, if_pos ⟨hfirst, by simpa using hlast⟩]
  congr 1
  refine List.ext_getElem (by simp; omega) fun i hi hi' => ?_
  simp

theorem mapM_eq_some_map {xs : List β} {step : β → Option γ} {g : β → γ} (h : ∀ x ∈ xs, step x = some (g x)) :
    xs.mapM step = some (xs.map g) := by
  induction xs with
  | nil => rfl
  | cons x xs ih =>
    obtain ⟨hx, hxs⟩ := List.forall_mem_cons.1 h
    simp [hx, ih hxs]

/-- A loop whose steps all come to an end gives the values that there are. -/
theorem collect?_eq (name : String) {xs : List β} {step : β → Option (Option (String × α))}
    {g : β → Option (String × α)} (h : ∀ x ∈ xs, step x = some (g x)) :
    collect? name xs step = some (.ofPairs name (xs.filterMap g)) := by
  rw [collect?, mapM_eq_some_map h, Option.map_some, List.filterMap_map]
  rfl

section

variable [Number α] {s : Series α} {n : Nat} {d : Nat → String} {v : Nat → α}
  (hpoints : s.points = (List.range n).map fun j => (d j, v j)) {top p : Nat} (hp : 1 ≤ p) (htop : n ≤ top)
include hpoints

omit [Number α] in
theorem lagged?_eq (name : String) (f : α → α → Option α) : lagged? s p name f =
    some (.ofPairs name ((List.range' p (n - p)).filterMap fun j => (f (v (j - p)) (v j)).map (d j, ·))) := by
  have hlength : s.points.length = n := by simp [hpoints]
  rw [lagged?, hlength]
  split
  next hshort => simp [Nat.sub_eq_zero_of_le hshort, Series.ofPairs, Series.empty]
  next hlong =>
    refine collect?_eq _ fun j hj => ?_
    rw [List.mem_range'_1] at hj
    have hprior : value? s.points (j - p) = some (v (j - p)) := value?_eq hpoints (by omega)
    have hvalue : value? s.points j = some (v j) := value?_eq hpoints (by omega)
    have hat : at? s.points j = fun x => some (d j, x) := funext fun x => at?_eq hpoints (by omega) x
    simp only [sub?_eq hj.1, hprior, hvalue, hat, bind, Option.bind]
    cases f (v (j - p)) (v j) <;> rfl

theorem momentum?_eq : momentum? s p = some (momentum s p) := by
  rw [momentum?, lagged?_eq hpoints, momentum_eq hpoints, ← List.filterMap_eq_map]
  rfl

theorem rateOfChange?_eq : rateOfChange? s p = some (rateOfChange s p) := by
  rw [rateOfChange?, lagged?_eq hpoints, rateOfChange_eq hpoints]
  congr 4
  funext j
  split <;> rfl

include hp htop

theorem averageAt?_eq {start : Nat} (hstart : start + p ≤ n) (window : List α) :
    averageAt? top s p window start = some (d (start + p - 1), average window p) := by
  have hadd : add? top start p = some (start + p) := add?_eq (by omega)
  have hsub : sub? (start + p) 1 = some (start + p - 1) := sub?_eq (by omega)
  simp only [averageAt?, hadd, hsub, bind, Option.bind]
  exact at?_eq hpoints (by omega) _

theorem movingAverage?_eq : movingAverage? top s p = some (movingAverage s p) := by
  have hlength : s.points.length = n := by simp [hpoints]
  rw [movingAverage?, movingAverage_eq hpoints p hp, hlength]
  split
  next hshort =>
    have hnone : n + 1 - p = 0 := by omega
    simp [hnone, Series.ofPairs, Series.empty]
  next hlong =>
    rw [numbers_range hpoints, windows_range, zipIdx_map_range, collect?_eq _ fun x hx => ?step]
    case step =>
      have hend : x.2 + p ≤ n := by
        obtain ⟨start, hstart, rfl⟩ := List.mem_map.1 hx
        rw [List.mem_range] at hstart
        show start + p ≤ n
        omega
      rw [averageAt?_eq hpoints hp htop hend]
      rfl
    rw [List.filterMap_eq_map', List.map_map, List.range'_eq_map_range, List.map_map]
    congr 3
    funext start
    have hlast : p - 1 + start = start + p - 1 := by omega
    have hfirst : start + p - 1 + 1 - p = start := by omega
    simp only [Function.comp_apply, hlast, hfirst]

omit hp htop in
/-- Each window of two values is a change. -/
theorem mapM_change?_eq :
    (windows 2 s.numbers).mapM change? = some ((List.range (n - 1)).map fun i => v (i + 1) - v i) := by
  rw [numbers_range hpoints, windows_range, List.mapM_map]
  exact mapM_eq_some_map fun start _ => rfl

theorem strengthAt?_eq {i : Nat} (hi : p ≤ i + 1) (hn : i + 1 < n) :
    strengthAt? top s p (((List.range (n - 1)).map fun i => v (i + 1) - v i).map rise)
      (((List.range (n - 1)).map fun i => v (i + 1) - v i).map fall) i =
    some (d (i + 1), strength p ((List.range' (i + 1 + 1 - p) p).map fun k => v k - v (k - 1))) := by
  have hwindow : i + 1 - (i + 1 - p) = p := by omega
  have hnext : i + 1 + 1 - p = i + 1 - p + 1 := by omega
  have hslice : ∀ f : α → α, slice? (((List.range (n - 1)).map fun i => v (i + 1) - v i).map f) (i + 1 - p) i =
      some (((List.range' (i + 1 - p) p).map fun k => v (k + 1) - v k).map f) := by
    intro f
    rw [List.map_map, slice?_range _ (by omega) (by omega), hwindow, List.map_map]
  have hadd : add? top i 1 = some (i + 1) := add?_eq (by omega)
  simp only [strengthAt?, hadd, sub?_eq hi, hslice, bind, Option.bind, hnext, ← changes_range']
  exact at?_eq hpoints hn _

theorem strengthIndex?_eq : strengthIndex? top s p = some (strengthIndex s p) := by
  have hlength : s.points.length = n := by simp [hpoints]
  rw [strengthIndex?, strengthIndex_eq hpoints p hp, hlength]
  split
  next hshort => simp [Nat.sub_eq_zero_of_le hshort, Series.ofPairs, Series.empty]
  next hlong =>
    simp only [mapM_change?_eq hpoints, sub?_eq hp, bind, Option.bind]
    have hcount : n - 1 - (p - 1) = n - p := by omega
    have hbehind : List.range' p (n - p) = (List.range' (p - 1) (n - p)).map (· + 1) := by
      rw [map_succ_range', Nat.sub_add_cancel hp]
    rw [List.length_map, List.length_range, hcount, collect?_eq _ fun i hi => ?step]
    case step =>
      rw [List.mem_range'_1] at hi
      rw [strengthAt?_eq hpoints hp htop (by omega) (by omega)]
      rfl
    rw [hbehind, List.filterMap_eq_map', List.map_map]
    rfl

/-- **The indicators are what their definitions say**, for a series with the present observations `(d 0, v 0)` to
`(d (n - 1), v (n - 1))` and any number of periods from 1 on: what stands at which positions, and so how many points
there are. The loops over positions give the same; no access of theirs is out of range, and no position is below zero or
above `top`. -/
theorem indicators_by_position :
    movingAverage s p = .ofPairs (derivedName "MA" s p) ((List.range' (p - 1) (n + 1 - p)).map fun j =>
        (d j, total ((List.range' (j + 1 - p) p).map v) / Number.ofNat p)) ∧
      momentum s p = .ofPairs (derivedName "MOMENTUM" s p) ((List.range' p (n - p)).map fun j =>
        (d j, v j - v (j - p))) ∧
      rateOfChange s p = .ofPairs (derivedName "ROC" s p) ((List.range' p (n - p)).filterMap fun j =>
        if Number.isZero (v (j - p)) then none
        else some (d j, (v j - v (j - p)) / v (j - p) * Number.ofNat 100)) ∧
      strengthIndex s p = .ofPairs (derivedName "RSI" s p) ((List.range' p (n - p)).map fun j =>
        let changes := (List.range' (j + 1 - p) p).map fun i => v i - v (i - 1)
        let gain := total (changes.map fun x => Number.greater x (Number.ofNat 0)) / Number.ofNat p
        let loss := total (changes.map fun x => Number.greater (-x) (Number.ofNat 0)) / Number.ofNat p
        (d j, if Number.isZero loss then Number.ofNat 100
          else Number.ofNat 100 - Number.ofNat 100 / (Number.ofNat 1 + gain / loss))) ∧
      ((movingAverage s p).length = n + 1 - p ∧ (momentum s p).length = n - p ∧ (rateOfChange s p).length ≤ n - p ∧
        (strengthIndex s p).length = n - p) ∧
      movingAverage? top s p = some (movingAverage s p) ∧ momentum? s p = some (momentum s p) ∧
      rateOfChange? s p = some (rateOfChange s p) ∧ strengthIndex? top s p = some (strengthIndex s p) := by
  refine ⟨movingAverage_eq hpoints p hp, momentum_eq hpoints p, rateOfChange_eq hpoints p,
    strengthIndex_eq hpoints p hp, ⟨?_, ?_, ?_, ?_⟩, movingAverage?_eq hpoints hp htop, momentum?_eq hpoints,
    rateOfChange?_eq hpoints, strengthIndex?_eq hpoints hp htop⟩
  · simp [movingAverage_eq hpoints p hp, Series.length, Series.ofPairs]
  · simp [momentum_eq hpoints, Series.length, Series.ofPairs]
  · rw [rateOfChange_eq hpoints, Series.length, Series.ofPairs, List.length_map]
    simpa using List.length_filterMap_le _ (List.range' p (n - p))
  · simp [strengthIndex_eq hpoints p hp, Series.length, Series.ofPairs]

end

/-- Four present observations, one missing between them and a zero among them, over two periods. -/
theorem indicators_by_position_gap :
    let s : Series Float := ⟨"gdp", [⟨"2020-01-01", some 0⟩, ⟨"2020-02-01", none⟩, ⟨"2020-03-01", some 2⟩,
      ⟨"2020-04-01", some 0⟩, ⟨"2020-05-01", some 6⟩]⟩
    let d : Nat → String := fun j => ["2020-01-01", "2020-03-01", "2020-04-01", "2020-05-01"].getD j ""
    let v : Nat → Float := fun j => [0, 2, 0, 6].getD j 0
    s.points = (List.range 4).map (fun j => (d j, v j)) ∧ 1 ≤ 2 ∧ 4 ≤ 10 ∧
      strengthIndex s 2 = .ofPairs "RSI(gdp,2)" [("2020-04-01", 50), ("2020-05-01", 75)] ∧
      momentum s 2 = .ofPairs (derivedName "MOMENTUM" s 2) ((List.range' 2 (4 - 2)).map fun j =>
        (d j, v j - v (j - 2))) ∧
      ((movingAverage s 2).length = 4 + 1 - 2 ∧ (momentum s 2).length = 4 - 2 ∧ (rateOfChange s 2).length ≤ 4 - 2 ∧
        (strengthIndex s 2).length = 4 - 2) ∧
      movingAverage? 10 s 2 = some (movingAverage s 2) ∧ momentum? s 2 = some (momentum s 2) ∧
      rateOfChange? s 2 = some (rateOfChange s 2) ∧ strengthIndex? 10 s 2 = some (strengthIndex s 2) := by
  intro s d v
  have hpoints : s.points = (List.range 4).map (fun j => (d j, v j)) := by decide +kernel
  obtain ⟨-, hmomentum, -, -, hlength, hloops⟩ :=
    indicators_by_position hpoints (show 1 ≤ 2 by decide) (show 4 ≤ 10 by decide)
  exact ⟨hpoints, by decide, by decide, by decide +kernel, hmomentum, hlength, hloops⟩

end SeriesFormula.Statistics
