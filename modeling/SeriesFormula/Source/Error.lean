import SeriesFormula.Json.Reader
import SeriesFormula.Series.Basic

/-!
# Errors of sources

Why a file, a table or a document gives no series.
-/

namespace SeriesFormula

/-- Why a file cannot be read or written. -/
inductive FileError where
  | missing
  | folder
  | notFolder
  /-- The content is no text. -/
  | notText
  /-- A path, or a name on it, is too long. -/
  | nameTooLong
  /-- A path holds the character with the number zero. -/
  | zeroByte
  /-- A failure that the system describes. -/
  | other (message : String)
  deriving DecidableEq

namespace FileError

def message : FileError → String
  | missing => "No such file or directory (os error 2)"
  | folder => "Is a directory (os error 21)"
  | notFolder => "Not a directory (os error 20)"
  | notText => "stream did not contain valid UTF-8"
  | nameTooLong => "File name too long (os error 36)"
  | zeroByte => "file name contained an unexpected NUL byte"
  | other message => message

end FileError

def Json.ReadError.message : Json.ReadError → String
  | .document .syntactic => "the document is malformed"
  | .document .early => "the document ends too early"
  | .document .data => "the document has the wrong shape"
  | .data error => error.message

/-- Why a source gives no series. -/
inductive SourceError where
  /-- A table without records. -/
  | missingHeaders
  /-- A table with fewer than two columns. -/
  | missingColumns (found : Nat)
  /-- A record that is not as long as the first. -/
  | unequalLengths (expected found : Nat)
  /-- A cell that is refused; rows count from one, without the header. -/
  | cell (name : String) (row : Nat) (error : DataError)
  /-- A series that is refused. -/
  | series (name : String) (error : DataError)
  /-- A document that is refused. -/
  | document (error : Json.ReadError)
  /-- A file that cannot be read. -/
  | file (error : FileError)
  deriving DecidableEq

namespace SourceError

def kind : SourceError → String
  | missingHeaders => "missing_headers"
  | missingColumns _ => "missing_columns"
  | unequalLengths .. => "csv_unequal_lengths"
  | cell .. => "cell"
  | series .. => "series"
  | document _ => "json"
  | file _ => "io"

def message : SourceError → String
  | missingHeaders => "csv input has no headers"
  | missingColumns found => s!"csv input needs a date and a value column, found {found}"
  | unequalLengths expected found =>
    s!"found record with {found} fields, but the previous record has {expected} fields"
  | cell name row error => "series " ++ Text.quoted name ++ s!", row {row}: " ++ error.message
  | series name error => "series " ++ Text.quoted name ++ ": " ++ error.message
  | document error => error.message
  | file error => error.message

end SourceError

/-- A series with the given name, unless its labels are refused. -/
def Series.validated (name : String) (observations : List (Observation Float)) :
    Except SourceError (Series Float) := do
  let s : Series Float := ⟨name, observations⟩
  s.validate.mapError (.series name)
  return s

end SeriesFormula
