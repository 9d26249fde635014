import SeriesFormula.Series.Index

/-!
# Ranges of dates

A `DateRange` has a first day, a last day, both or none, and never a first day after its last.
-/

namespace SeriesFormula

def DateRange.Ordered (start stop : Option Date) : Prop :=
  ∀ a ∈ start, ∀ b ∈ stop, a ≤ b

/-- The days from `start` to `stop`, both included, unbounded where there is none. -/
structure DateRange where
  start : Option Date
  stop : Option Date
  ordered : DateRange.Ordered start stop
  deriving DecidableEq

namespace DateRange

def unbounded : DateRange := ⟨none, none, by simp [Ordered]⟩

/-- The range between two bounds, unless they are inverted. -/
def between (start stop : Option Date) : Except DataError DateRange :=
  match start, stop with
  | some a, some b =>
    if h : a ≤ b then .ok ⟨some a, some b, by simpa [Ordered] using h⟩ else .error (.invertedRange a b)
  | some a, none => .ok ⟨some a, none, by simp [Ordered]⟩
  | none, stop => .ok ⟨none, stop, by simp [Ordered]⟩

def ofLabels (start stop : Option String) : Except DataError DateRange := do
  let start ← start.mapM observationDate
  let stop ← stop.mapM observationDate
  between start stop

def covers (range : DateRange) (date : Date) : Bool :=
  range.start.all (· ≤ date) && range.stop.all (date ≤ ·)

/-- Whether a label is a date in the range. -/
def contains (range : DateRange) (label : String) : Bool := (Date.ofLabel? label).any range.covers

/-- The positions of the labels in the range. -/
def positionsWithin (range : DateRange) (index : DateIndex) : List Nat :=
  (index.labels.zipIdx.filter fun (label, _) => range.contains label).map fun (_, position) => position

end DateRange

end SeriesFormula
