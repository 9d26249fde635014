import SeriesFormula.Calendar.Date
import SeriesFormula.Text.Quoted

/-!
# Errors in data

Why labels, values, ranges and series are refused.
-/

namespace SeriesFormula

/-- Why data are refused. -/
inductive DataError where
  /-- A label is no date. -/
  | invalidDate (label : String)
  /-- A cell is neither a number nor a mark for a missing value. -/
  | nonNumeric (cell : String)
  /-- A label is not after the one before it; `position` is that of the second. -/
  | notAscending (position : Nat) (previous current : String)
  /-- A range starts after its end. -/
  | invertedRange (start stop : Date)
  /-- A series has not as many values as labels. -/
  | lengthMismatch (labels values : Nat)
  deriving DecidableEq

namespace DataError

def kind : DataError → String
  | invalidDate _ => "invalid_date"
  | nonNumeric _ => "non_numeric_value"
  | notAscending .. => "not_ascending"
  | invertedRange .. => "inverted_range"
  | lengthMismatch .. => "length_mismatch"

def message : DataError → String
  | invalidDate label => "invalid observation date " ++ Text.quoted label ++ "; expected YYYY-MM-DD"
  | nonNumeric cell => "value " ++ Text.quoted cell ++ " is not numeric"
  | notAscending position previous current =>
    s!"dates must be strictly ascending: {previous} is followed by {current} at position {position}"
  | invertedRange start stop => s!"date range start {start.text} is after end {stop.text}"
  | lengthMismatch labels values => s!"index length ({labels}) does not match value length ({values})"

end DataError

end SeriesFormula
