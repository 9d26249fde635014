import SeriesFormula.Calendar.Reader
import SeriesFormula.Series.Error

/-!
# Observations

An observation is a label, which should be a date, and a value, which may be missing. `observationDate` and
`observationValue` read the two from text.
-/

namespace SeriesFormula

/-- A labelled value; `none` stands for a missing one. -/
structure Observation (α : Type) where
  date : String
  value : Option α
  deriving DecidableEq

/-- Whether the value of an observation is missing. -/
def Observation.isMissing {α : Type} (o : Observation α) : Bool := o.value.isNone

def observationDate (label : String) : Except DataError Date :=
  match Date.ofLabel? label with
  | some date => .ok date
  | none => .error (.invalidDate label)

/-- The cells that stand for a missing value. -/
def missingMarkers : List String := ["", ".", "NA", "N/A", "NaN", "null", "NULL", ":"]

/-- The value of a cell, blanks at its ends aside. -/
def observationValue (cell : String) : Except DataError (Option Float) :=
  let cell := Text.trimmed cell
  if missingMarkers.contains cell then .ok none
  else
    match Decimal.numeric? cell.toList with
    | some value => .ok (some value)
    | none => .error (.nonNumeric cell)

end SeriesFormula
