import SeriesFormula.Exchange.Decode
import SeriesFormula.Exchange.Encode
import SeriesFormula.Formula.Context
import SeriesFormula.Source.Error

/-!
# Series in documents

A document holds the observations of one series, or an object of identifiers with the observations of each.
-/

namespace SeriesFormula

def Series.ofDocument (name text : String) : Except SourceError (Series Float) := do
  let observations ← ((Json.Reader.list Observation.reader).run text).mapError .document
  Series.validated name observations

def Series.document (s : Series Float) : String := s.observationsToJson.compact

/-- The observations of series by their identifiers, as a document gives them. -/
abbrev ObservationMap := Std.TreeMap String (List (Observation Float))

def ObservationMap.reader : Json.Reader ObservationMap :=
  (Json.Reader.members (.list Observation.reader)).check fun members => return .ofList members

/-- The series of a document, each under its identifier in small letters and named by it. -/
def Context.ofDocument (text : String) : Except SourceError (Context Float) := do
  let found ← (ObservationMap.reader.run text).mapError .document
  let entries ← found.toList.mapM fun (id, observations) => do
    let id := Text.lower id
    return (id, ← Series.validated id observations)
  return .ofList entries

end SeriesFormula
