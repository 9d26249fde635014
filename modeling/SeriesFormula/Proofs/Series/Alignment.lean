import SeriesFormula.Exchange.Decode
import SeriesFormula.Proofs.Json.Reader
import SeriesFormula.Statistics.Indicator
import SeriesFormula.Statistics.Regression

/-!
# Series as two columns

A `SplitSeries` keeps its labels and its values in two lists, which nothing keeps as long as each other; a selection
takes the labels and the values at its positions one list after the other.

- The columns of a series are aligned (`SplitSeries.aligned_ofSeries`): there are as many labels as values, and reading
  by position, reading all and building again agree.
- Each operation on two columns gives the columns of the same operation on observations (`SplitSeries.ofSeries_take`,
  `ofSeries_present`, `ofSeries_last`, `ofSeries_within`, `ofSeries_transformed`).
- So the columns of a series that is made by any operations in any order (`Construction`) are aligned, and only those of
  two columns or a document are refused, when they are not equally long (`columns_aligned`).
-/

namespace SeriesFormula

/-! ## Two columns -/

/-- A series as a list of labels and a list of values. -/
@[ext]
structure SplitSeries (α : Type) where
  name : String
  index : DateIndex
  values : List (Option α)
  deriving DecidableEq

namespace SplitSeries

variable {α : Type}

/-- The columns of a series. -/
def ofSeries (s : Series α) : SplitSeries α := ⟨s.name, s.index, s.values⟩

/-- Two columns, if they are equally long. -/
def ofColumns (name : String) (index : DateIndex) (values : List (Option α)) : Except DataError (SplitSeries α) :=
  if index.length = values.length then .ok ⟨name, index, values⟩
  else .error (.lengthMismatch index.length values.length)

/-- The labels and the values of observations. -/
def ofObservations (name : String) (observations : List (Observation α)) : SplitSeries α :=
  ⟨name, ⟨observations.map (·.date)⟩, observations.map (·.value)⟩

def ofPairs (name : String) (pairs : List (String × α)) : SplitSeries α :=
  ofObservations name (pairs.map fun pair => ⟨pair.1, some pair.2⟩)

variable (s : SplitSeries α)

def length : Nat := s.values.length

/-- Labels and values side by side, as far as both go. -/
def observations : List (Observation α) := List.zipWith .mk s.index.labels s.values

def observation? (position : Nat) : Option (Observation α) := do
  let date ← s.index.label? position
  let value ← s.values[position]?
  return ⟨date, value⟩

def renamed (name : String) : SplitSeries α := { s with name }

/-- The labels and the values at those of the positions that have a value. -/
def take (positions : List Nat) : SplitSeries α :=
  let kept := positions.filter (· < s.values.length)
  ⟨s.name, s.index.take kept, kept.pmap (fun i (h : i < s.values.length) => s.values[i]) (by simp [kept])⟩

/-- The positions of the values that are present. -/
def presentPositions : List Nat := (s.values.zipIdx.filter fun x => x.1.isSome).map (·.2)

def present : SplitSeries α :=
  if s.values.countP Option.isSome = s.values.length then s else s.take s.presentPositions

def last (n : Nat) : SplitSeries α := s.take (List.range' (s.length - n) (s.length - (s.length - n)))

def within (range : DateRange) : SplitSeries α := s.take (range.positionsWithin s.index)

/-- A transform of the observations, which makes new columns. -/
def transformed (F : Series α → Series α) : SplitSeries α :=
  let result := F ⟨s.name, s.observations⟩
  ofObservations result.name result.observations

/-- There are as many labels as values, and what is seen of the columns together is the observations. -/
structure Aligned : Prop where
  length_eq : s.index.length = s.values.length
  length_observations : s.observations.length = s.length
  observation?_eq : ∀ i, s.observation? i = s.observations[i]?
  isSome_observation? : ∀ i, (s.observation? i).isSome ↔ i < s.length
  ofObservations_eq : ofObservations s.name s.observations = s

/-! ## Positions and observations -/

/-- The entries at positions that are all there. -/
theorem pmap_getElem {β : Type} (xs : List β) (positions : List Nat) (h : ∀ i ∈ positions, i < xs.length) :
    positions.pmap (fun i (hi : i < xs.length) => xs[i]) h = positions.filterMap (xs[·]?) := by
  induction positions with
  | nil => rfl
  | cons i positions ih =>
    obtain ⟨hi, hrest⟩ := List.forall_mem_cons.1 h
    rw [List.pmap, List.filterMap_cons_some (List.getElem?_eq_getElem hi), ih hrest]

/-- The positions from one on read all but the entries before it. -/
theorem filterMap_getElem?_range' {β : Type} (xs : List β) (k : Nat) :
    (List.range' k (xs.length - k)).filterMap (xs[·]?) = xs.drop k := by
  rw [← pmap_getElem xs _ fun i hi => by simp at hi; omega]
  exact List.ext_getElem (by simp) fun i hi hi' => by simp

/-- Positions past the end read nothing. -/
theorem filterMap_getElem?_filter_lt {β γ : Type} (xs : List β) (key : β → γ) (positions : List Nat) :
    (positions.filter (· < xs.length)).filterMap ((xs.map key)[·]?) = (positions.filterMap (xs[·]?)).map key := by
  rw [List.filterMap_filter, List.map_filterMap]
  refine List.filterMap_congr fun i _ => ?_
  rw [List.getElem?_map]
  split
  · rfl
  · rename_i h
    rw [List.getElem?_eq_none (by simpa using h)]
    rfl

/-- The entries at the positions of those whose key passes. -/
theorem filterMap_getElem?_positions {β γ : Type} (key : β → γ) (passes : γ → Bool) (xs : List β) :
    (((xs.map key).zipIdx.filter fun x => passes x.1).map (·.2)).filterMap (xs[·]?) = xs.filter (passes ∘ key) := by
  rw [List.zipIdx_map, List.filter_map, List.map_map, List.filterMap_map]
  calc (xs.zipIdx.filter _).filterMap _
      = (xs.zipIdx.filter fun x => passes (key x.1)).filterMap fun x => some x.1 :=
        List.filterMap_congr fun x hx => List.mem_zipIdx_iff_getElem?.1 (List.mem_of_mem_filter hx)
    _ = ((xs.zipIdx.map (·.1)).filter (passes ∘ key)) := by
        rw [List.filterMap_eq_map', List.filter_map]
        rfl
    _ = xs.filter (passes ∘ key) := by rw [List.zipIdx_map_fst]

/-! ## The columns of a series -/

section

variable (t : Series α)

theorem length_index : t.index.length = t.values.length := by
  simp [Series.index, Series.values, DateIndex.length]

theorem observations_ofSeries : (ofSeries t).observations = t.observations := by
  simp [observations, ofSeries, Series.index, Series.values, List.zipWith_map]

theorem observation?_ofSeries (i : Nat) : (ofSeries t).observation? i = t.observations[i]? := by
  cases h : t.observations[i]? <;>
    simp [observation?, ofSeries, Series.index, Series.values, DateIndex.label?, h]

theorem length_ofSeries : (ofSeries t).length = t.length := by
  simp [length, ofSeries, Series.values, Series.length]

/-- **The columns of a series are aligned.** -/
theorem aligned_ofSeries : (ofSeries t).Aligned where
  length_eq := length_index t
  length_observations := by rw [observations_ofSeries, length_ofSeries, Series.length]
  observation?_eq i := by rw [observations_ofSeries, observation?_ofSeries]
  isSome_observation? i := by
    rw [observation?_ofSeries, length_ofSeries, Series.length]
    simp
  ofObservations_eq := by
    rw [observations_ofSeries]
    rfl

/-- Equally long columns are those of the series of their observations. -/
theorem eq_ofSeries {s : SplitSeries α} (h : s.index.length = s.values.length) :
    s = ofSeries ⟨s.name, s.observations⟩ := by
  rw [DateIndex.length] at h
  refine SplitSeries.ext rfl (congrArg DateIndex.mk ?_) ?_
  · rw [observations, List.map_zipWith]
    exact List.ext_getElem (by simp [h]) fun i hi hi' => by simp
  · rw [ofSeries, Series.values, observations, List.map_zipWith]
    exact List.ext_getElem (by simp [h]) fun i hi hi' => by simp

theorem ofColumns_eq (name : String) (index : DateIndex) (values : List (Option α)) :
    ofColumns name index values = (Series.ofColumns name index values).map ofSeries := by
  rw [ofColumns, Series.ofColumns]
  split
  next h => exact congrArg Except.ok (eq_ofSeries (s := ⟨name, index, values⟩) h)
  next => rfl

/-! ## Operations on the two columns -/

theorem ofSeries_take (positions : List Nat) :
    (ofSeries t).take positions = ofSeries ⟨t.name, positions.filterMap (t.observations[·]?)⟩ := by
  have hlength : (ofSeries t).values.length = t.observations.length := List.length_map _
  refine SplitSeries.ext rfl (congrArg DateIndex.mk ?_) ?_
  · rw [hlength]
    exact filterMap_getElem?_filter_lt t.observations (·.date) positions
  · rw [take, pmap_getElem, hlength]
    exact filterMap_getElem?_filter_lt t.observations (·.value) positions

theorem ofSeries_take_presentPositions : (ofSeries t).take (ofSeries t).presentPositions = ofSeries t.present := by
  rw [ofSeries_take]
  congr 2
  exact filterMap_getElem?_positions (·.value) Option.isSome t.observations

theorem ofSeries_present : (ofSeries t).present = ofSeries t.present := by
  rw [present, ofSeries_take_presentPositions]
  split
  next hall =>
    have hpresent : t.observations.filter (fun o => o.value.isSome) = t.observations := by
      simpa [ofSeries, Series.values] using hall
    rw [Series.present, hpresent]
  next => rfl

theorem ofSeries_last (n : Nat) : (ofSeries t).last n = ofSeries (t.last n) := by
  rw [last, ofSeries_take, length_ofSeries]
  congr 2
  exact filterMap_getElem?_range' t.observations (t.length - n)

theorem ofSeries_within (range : DateRange) : (ofSeries t).within range = ofSeries (t.within range) := by
  rw [within, ofSeries_take]
  congr 2
  exact filterMap_getElem?_positions (·.date) range.contains t.observations

theorem ofSeries_transformed (F : Series α → Series α) : (ofSeries t).transformed F = ofSeries (F t) := by
  rw [transformed, observations_ofSeries]
  rfl

end

end SplitSeries

/-- A series is made up of its columns. -/
theorem Series.ofColumns_columns {α : Type} (s : Series α) : ofColumns s.name s.index s.values = .ok s := by
  rw [ofColumns, if_pos (SplitSeries.length_index s)]
  exact congrArg (fun observations => Except.ok (Series.mk s.name observations)) (SplitSeries.observations_ofSeries s)

/-! ## Columns in documents -/

/-- The name and the two columns that a document holds. -/
def Series.parts : Json.Reader (String × DateIndex × List (Option Float)) :=
  Json.Reader.check Series.draftReader fun draft =>
    return (← Json.Reader.required draft.name, ← Json.Reader.required draft.index, ← Json.Reader.required draft.values)

/-- The reader of two columns. -/
def SplitSeries.reader : Json.Reader (SplitSeries Float) :=
  Series.parts.check fun parts => (SplitSeries.ofColumns parts.1 parts.2.1 parts.2.2).mapError .data

theorem Series.reader_eq : Series.reader =
    Series.parts.check fun parts => (Series.ofColumns parts.1 parts.2.1 parts.2.2).mapError .data := by
  rw [parts, Json.Reader.check_check, reader]
  simp only [bind_assoc, pure_bind]

/-! ## Series made in any way -/

/-- A transform of the statistics, with its number of periods. -/
inductive Transform where
  | rateOfChange (p : Nat)
  | movingAverage (p : Nat)
  | strengthIndex (p : Nat)
  | momentum (p : Nat)
  | regression

def Transform.apply : Transform → Series Float → Series Float
  | rateOfChange p, s => Statistics.rateOfChange s p
  | movingAverage p, s => Statistics.movingAverage s p
  | strengthIndex p, s => Statistics.strengthIndex s p
  | momentum p, s => Statistics.momentum s p
  | regression, s => Statistics.regression s

/-- A way to make a series: from columns, a document, nothing, observations or pairs, and then by operations in any
order. -/
inductive Construction where
  | columns (name : String) (index : DateIndex) (values : List (Option Float))
  | document (text : String)
  | empty (name : String)
  | observations (name : String) (entries : List (Observation Float))
  | pairs (name : String) (entries : List (String × Float))
  | renamed (base : Construction) (name : String)
  | present (base : Construction)
  | last (base : Construction) (n : Nat)
  | within (base : Construction) (range : DateRange)
  | transformed (base : Construction) (transform : Transform)

namespace Construction

/-- The series that is made. -/
def series : Construction → Except Json.ReadError (Series Float)
  | columns name index values => (Series.ofColumns name index values).mapError .data
  | document text => Series.reader.run text
  | empty name => .ok (.empty name)
  | observations name entries => .ok ⟨name, entries⟩
  | pairs name entries => .ok (.ofPairs name entries)
  | renamed base name => base.series.map (·.renamed name)
  | present base => base.series.map (·.present)
  | last base n => base.series.map (·.last n)
  | within base range => base.series.map (·.within range)
  | transformed base transform => base.series.map transform.apply

/-- The columns that are made. -/
def split : Construction → Except Json.ReadError (SplitSeries Float)
  | columns name index values => (SplitSeries.ofColumns name index values).mapError .data
  | document text => SplitSeries.reader.run text
  | empty name => .ok ⟨name, ⟨[]⟩, []⟩
  | observations name entries => .ok (.ofObservations name entries)
  | pairs name entries => .ok (.ofPairs name entries)
  | renamed base name => base.split.map (·.renamed name)
  | present base => base.split.map (·.present)
  | last base n => base.split.map (·.last n)
  | within base range => base.split.map (·.within range)
  | transformed base transform => base.split.map (·.transformed transform.apply)

theorem map_map_eq {base : Except Json.ReadError (Series Float)} (F : Series Float → Series Float)
    (G : SplitSeries Float → SplitSeries Float) (h : ∀ t, G (.ofSeries t) = .ofSeries (F t)) :
    (base.map SplitSeries.ofSeries).map G = (base.map F).map .ofSeries := by
  cases base with
  | error => rfl
  | ok t => exact congrArg Except.ok (h t)

/-- Each operation on the columns gives the columns of the operation on the series. -/
theorem split_eq (c : Construction) : c.split = c.series.map SplitSeries.ofSeries := by
  induction c with
  | columns name index values =>
    rw [split, series, SplitSeries.ofColumns_eq, mapError_map]
  | document text =>
    simp only [split, series, SplitSeries.reader, Series.reader_eq, SplitSeries.ofColumns_eq, mapError_map,
      Json.Reader.run_check_map]
  | empty name => rfl
  | observations name entries => rfl
  | pairs name entries => rfl
  | renamed base name ih => rw [split, series, ih, map_map_eq (·.renamed name) _ fun t => rfl]
  | present base ih => rw [split, series, ih, map_map_eq (·.present) _ SplitSeries.ofSeries_present]
  | last base n ih => rw [split, series, ih, map_map_eq (·.last n) _ fun t => SplitSeries.ofSeries_last t n]
  | within base range ih =>
    rw [split, series, ih, map_map_eq (·.within range) _ fun t => SplitSeries.ofSeries_within t range]
  | transformed base transform ih =>
    rw [split, series, ih, map_map_eq transform.apply _ fun t => SplitSeries.ofSeries_transformed t transform.apply]

end Construction

/-- The outcome is the series with these columns if they are equally long, else the error that tells both lengths. -/
structure PairsUp {ε : Type} (name : String) (index : DateIndex) (values : List (Option Float))
    (refusal : DataError → ε) (outcome : Except ε (Series Float)) : Prop where
  exists_ok_iff : (∃ s, outcome = .ok s) ↔ index.length = values.length
  eq_ok_iff : ∀ s, outcome = .ok s ↔ s.name = name ∧ s.index = index ∧ s.values = values
  eq_error : index.length ≠ values.length → outcome = .error (refusal (.lengthMismatch index.length values.length))

theorem pairsUp_ofColumns (name : String) (index : DateIndex) (values : List (Option Float)) :
    PairsUp name index values id (Series.ofColumns name index values) where
  exists_ok_iff := by
    rw [Series.ofColumns]
    split
    next hlength => exact iff_of_true ⟨_, rfl⟩ hlength
    next hlength => exact iff_of_false nofun hlength
  eq_ok_iff s := by
    constructor
    · intro h
      rw [Series.ofColumns] at h
      split at h
      next hlength =>
        cases h
        have hcolumns := SplitSeries.eq_ofSeries (s := ⟨name, index, values⟩) hlength
        exact ⟨rfl, (congrArg SplitSeries.index hcolumns).symm, (congrArg SplitSeries.values hcolumns).symm⟩
      next => cases h
    · rintro ⟨rfl, rfl, rfl⟩
      exact s.ofColumns_columns
  eq_error h := if_neg h

/-- The error may be wrapped. -/
theorem PairsUp.mapError {name : String} {index : DateIndex} {values : List (Option Float)}
    {outcome : Except DataError (Series Float)} (h : PairsUp name index values id outcome) {ε : Type}
    (refusal : DataError → ε) : PairsUp name index values refusal (outcome.mapError refusal) where
  exists_ok_iff := by simp only [mapError_eq_ok_iff, h.exists_ok_iff]
  eq_ok_iff s := by rw [mapError_eq_ok_iff, h.eq_ok_iff]
  eq_error hne := by
    rw [h.eq_error hne]
    rfl

/-- **The columns of a series are aligned, however it is made**: made on the columns one after the other it is the same
as on observations, there are as many labels as values, and reading by position, reading all and building again agree.
Columns and documents are accepted iff the two columns are equally long. -/
theorem columns_aligned :
    (∀ c : Construction, c.split = c.series.map .ofSeries ∧ ∀ s, c.split = .ok s → s.Aligned) ∧
    (∀ name index values, PairsUp name index values id (Series.ofColumns name index values)) ∧
    (∀ text name index values, Series.parts.run text = .ok (name, index, values) →
      PairsUp name index values .data (Series.reader.run text)) ∧
    ∀ text s, Series.reader.run text = .ok s → Series.parts.run text = .ok (s.name, s.index, s.values) := by
  refine ⟨fun c => ⟨c.split_eq, fun s hs => ?_⟩, pairsUp_ofColumns, fun text name index values hparts => ?_,
    fun text s hs => ?_⟩
  · rw [c.split_eq] at hs
    obtain ⟨t, -, rfl⟩ := map_eq_ok_iff.1 hs
    exact SplitSeries.aligned_ofSeries t
  · rw [Series.reader_eq, Json.Reader.run_check_of_run_eq_ok _ _ hparts]
    exact (pairsUp_ofColumns name index values).mapError Json.ReadError.data
  · rw [Series.reader_eq, Json.Reader.run_check_eq_ok_iff] at hs
    obtain ⟨⟨name, index, values⟩, hparts, hs⟩ := hs
    obtain ⟨rfl, rfl, rfl⟩ := ((pairsUp_ofColumns name index values).eq_ok_iff s).1 (mapError_eq_ok_iff.1 hs)
    exact hparts

/-- A document with a missing value, from which the mean of two present ones is made, and one with two columns that are
not equally long. -/
theorem columns_aligned_document :
    let text := "[\"gdp\",[[\"2020-01-01\",\"2020-02-01\",\"2020-03-01\"]],[1,null,3]]"
    let c := ((Construction.document text).present.transformed (.movingAverage 2)).last 5
    let s : SplitSeries Float := ⟨"MA(gdp,2)", ⟨["2020-03-01"]⟩, [some 2]⟩
    let unequal := "[\"gdp\",[[\"2020-01-01\"]],[1,null]]"
    c.split = .ok s ∧ s.Aligned ∧
      Series.parts.run unequal = .ok ("gdp", ⟨["2020-01-01"]⟩, [some 1, none]) ∧
      Series.reader.run unequal = .error (.data (.lengthMismatch 1 2)) := by
  intro text c s unequal
  obtain ⟨hsplit, haligned⟩ := columns_aligned.1 c
  have hs : c.split = .ok s := by
    rw [hsplit]
    decide +kernel
  have hparts : Series.parts.run unequal = .ok ("gdp", ⟨["2020-01-01"]⟩, [some 1, none]) := by decide +kernel
  exact ⟨hs, haligned s hs, hparts, (columns_aligned.2.2.1 _ _ _ _ hparts).eq_error (by decide)⟩

end SeriesFormula
