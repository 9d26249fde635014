import SeriesFormula.Csv.Record
import SeriesFormula.Decimal.Layout
import SeriesFormula.Source.Error
import SeriesFormula.Text.Case

/-!
# Series in tables

A series is read from a table with a column of dates and a column of values, and written to one with the headers
`date` and `value` and an empty cell for a missing value.
-/

namespace SeriesFormula

/-- The columns that a table's dates and values are in. -/
structure Columns where
  date : Nat
  value : Nat
  deriving DecidableEq

/-- The column headed `date`, otherwise the first, and the one headed `value`, otherwise the first that is left. -/
def Columns.locate (headers : List String) : Except SourceError Columns :=
  if headers.length < 2 then .error (.missingColumns headers.length)
  else
    let date := (headers.findIdx? (Text.sameLetters · "date")).getD 0
    let value := (headers.findIdx? (Text.sameLetters · "value")).getD (if date = 0 then 1 else 0)
    .ok ⟨date, value⟩

/-- The observation in a record of a table. -/
def Columns.observation (columns : Columns) (name : String) (width : Nat) (row : Nat) (record : List String) :
    Except SourceError (Observation Float) := do
  unless record.length = width do throw (.unequalLengths width record.length)
  let value ← (observationValue (record.getD columns.value "")).mapError (.cell name row)
  return ⟨record.getD columns.date "", value⟩

namespace Series

def ofTable (name text : String) : Except SourceError (Series Float) :=
  match Csv.records text.toList with
  | [] => .error .missingHeaders
  | headers :: rows => do
    let columns ← Columns.locate headers
    let observations ← (rows.zipIdx 1).mapM fun (record, row) => columns.observation name headers.length row record
    validated name observations

def cell (value : Option Float) : List Char :=
  match value with
  | none => []
  | some x => Decimal.plain.chars x

/-- The characters of the table of a series. -/
def tableChars (s : Series Float) : List Char :=
  Csv.recordChars "date".toList "value".toList ++
    s.observations.flatMap fun o => Csv.recordChars o.date.toList (cell o.value)

def table (s : Series Float) : String := String.ofList s.tableChars

end Series

end SeriesFormula
