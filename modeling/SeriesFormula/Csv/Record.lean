import SeriesFormula.Text.Blank

/-!
# Tables as text

A table is a list of records and a record a list of fields. Fields are separated by commas and records end with the
line; empty lines are passed over. A field that starts with a quote goes on to the quote that closes it, and holds a
quote where two stand in a row. `Csv.records` reads such a text, `Csv.recordChars` writes a record.
-/

namespace SeriesFormula.Csv

/-! ## Reading -/

/-- Where the reader stands. -/
inductive Place where
  /-- At the start of a record. -/
  | record
  /-- At the start of a field. -/
  | field
  /-- In a field, outside of quotes. -/
  | bare
  /-- In quotes. -/
  | quoted
  /-- Behind a quote in quotes. -/
  | quote
  deriving DecidableEq, Repr

/-- What was read: all records, the fields of the present one and the characters of the present field, latest first. -/
structure State where
  place : Place
  records : List (List (List Char))
  fields : List (List Char)
  chars : List Char

def State.start : State := ⟨.record, [], [], []⟩

def State.add (st : State) (place : Place) (c : Char) : State := { st with place, chars := c :: st.chars }

def State.endField (st : State) : State :=
  { st with place := .field, fields := st.chars.reverse :: st.fields, chars := [] }

def State.endRecord (st : State) : State :=
  let st := st.endField
  ⟨.record, st.fields.reverse :: st.records, [], []⟩

def isLineEnd (c : Char) : Bool := c == '\n' || c == '\r'

/-- The state behind a character outside of quotes. -/
def State.unquoted (st : State) (c : Char) : State :=
  if c = ',' then st.endField
  else if isLineEnd c then st.endRecord
  else st.add .bare c

def State.next (st : State) (c : Char) : State :=
  match st.place with
  | .record => if isLineEnd c then st else if c = '"' then { st with place := .quoted } else st.unquoted c
  | .field => if c = '"' then { st with place := .quoted } else st.unquoted c
  | .bare => st.unquoted c
  | .quoted => if c = '"' then { st with place := .quote } else st.add .quoted c
  | .quote => if c = '"' then st.add .quoted c else st.unquoted c

/-- The records of a text that ends here. -/
def State.finish (st : State) : List (List (List Char)) :=
  match st.place with
  | .record => st.records.reverse
  | _ => st.endRecord.records.reverse

/-- The text without a byte order mark in front. -/
def dropMark : List Char → List Char
  | '\ufeff' :: cs => cs
  | cs => cs

/-- The records of a text, their fields trimmed. -/
def records (cs : List Char) : List (List String) :=
  ((dropMark cs).foldl State.next .start).finish.map fun record =>
    record.map fun field => String.ofList (Text.trim field)

/-! ## Writing -/

/-- The characters for which a field is quoted. -/
def needsQuotes (c : Char) : Bool := c == '"' || c == ',' || isLineEnd c

def fieldChars (cs : List Char) : List Char :=
  if cs.any needsQuotes then '"' :: cs.flatMap (fun c => if c = '"' then ['"', '"'] else [c]) ++ ['"'] else cs

def recordChars (first second : List Char) : List Char := fieldChars first ++ ',' :: fieldChars second ++ ['\n']

end SeriesFormula.Csv
