import Std.Data.HashSet.Basic
import SeriesFormula.Series.Observation

/-!
# Labels of a series

`DateIndex` is a list of labels, any texts. `DateIndex.validate` accepts those that are dates in strictly ascending
order, where the order is that of the texts.
-/

namespace SeriesFormula

/-- The labels of a series in order. -/
structure DateIndex where
  labels : List String
  deriving DecidableEq

namespace DateIndex

def length (index : DateIndex) : Nat := index.labels.length

def label? (index : DateIndex) (position : Nat) : Option String := index.labels[position]?

def position? (index : DateIndex) (label : String) : Option Nat := index.labels.findIdx? (· == label)

/-- Whether one of the labels was seen before, in the set or in front of it. -/
def repeats (seen : Std.HashSet String) : List String → Bool
  | [] => false
  | label :: labels => seen.contains label || repeats (seen.insert label) labels

def hasDuplicates (index : DateIndex) : Bool := repeats ∅ index.labels

/-- The labels next to each other, as pairs. -/
def neighbours (index : DateIndex) : List (String × String) := index.labels.zip index.labels.tail

/-- Whether each label is below the next one as a text. -/
def isStrictlyAscending (index : DateIndex) : Bool := index.neighbours.all fun (a, b) => a < b

/-- The first label that is not above the one before it. -/
def firstDescent? (index : DateIndex) : Option DataError :=
  (index.neighbours.zipIdx 1).findSome? fun ((previous, current), position) =>
    if previous < current then none else some (.notAscending position previous current)

/-- Refuses the first label that is no date, then the first that is not above the one before it. -/
def validate (index : DateIndex) : Except DataError Unit := do
  index.labels.forM fun label => discard (observationDate label)
  match index.firstDescent? with
  | some error => throw error
  | none => return ()

/-- The labels at the given positions that there are. -/
def take (index : DateIndex) (positions : List Nat) : DateIndex := ⟨positions.filterMap index.label?⟩

end DateIndex

end SeriesFormula
