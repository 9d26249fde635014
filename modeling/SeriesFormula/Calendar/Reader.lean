import SeriesFormula.Calendar.Date
import SeriesFormula.Decimal.Literal

/-!
# Reading dates

Two readers of `year-month-day`. Both allow blanks in front of each number, a sign before the year, one to four digits
for a year without a sign and one or two for month and day. `Date.ofLabel?`, for the labels of observations, trims the
text and asks for ten bytes; `Date.ofText?`, for exchanged documents, allows blanks before each hyphen and at the end.
-/

namespace SeriesFormula

namespace Calendar

/-- Splits off a number of at most `width` digits, at least one. -/
def splitNumber (width : Nat) (cs : List Char) : Option (Nat × List Char) :=
  let ds := (cs.take width).takeWhile Decimal.isDigit
  if ds.isEmpty then none else some (Decimal.digitsValue ds, cs.drop ds.length)

/-- Splits off a year, which may have any number of digits behind a sign. -/
def splitYear (cs : List Char) : Option (Int × List Char) :=
  match Text.trimStart cs with
  | '-' :: rest => (splitNumber rest.length rest).map fun (n, rest) => (-(n : Int), rest)
  | '+' :: rest => (splitNumber rest.length rest).map fun (n, rest) => ((n : Int), rest)
  | rest => (splitNumber 4 rest).map fun (n, rest) => ((n : Int), rest)

def splitField (cs : List Char) : Option (Nat × List Char) := splitNumber 2 (Text.trimStart cs)

def splitHyphen : List Char → Option (List Char)
  | '-' :: rest => some rest
  | _ => none

/-- The date that a text consists of; `gap` skips what may stand before a hyphen and at the end. -/
def readDate (gap : List Char → List Char) (cs : List Char) : Option Date := do
  let (year, cs) ← splitYear cs
  let cs ← splitHyphen (gap cs)
  let (month, cs) ← splitField cs
  let cs ← splitHyphen (gap cs)
  let (day, cs) ← splitField cs
  if (gap cs).isEmpty then Date.of? year month day else none

end Calendar

/-- The date of an observation's label, ten bytes between blanks. -/
def Date.ofLabel? (label : String) : Option Date :=
  let cs := Text.trim label.toList
  if Text.byteLength cs = 10 then Calendar.readDate id cs else none

def Date.ofText? (text : String) : Option Date := Calendar.readDate Text.trimStart text.toList

end SeriesFormula
