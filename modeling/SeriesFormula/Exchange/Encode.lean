import SeriesFormula.Formula.Ledger
import SeriesFormula.Formula.Expr
import SeriesFormula.Json.Basic

/-!
# Values as documents

The JSON form of each type. An observation is an array of its label and its value; a series as a value is the array of
its observations, while a series by itself has its labels and values in two columns; variants carry their name in the
member `kind`.
-/

namespace SeriesFormula

def ValueKind.toJson (kind : ValueKind) : Json := .string kind.text

/-- An observation is a label and a value. -/
def Observation.toJson (o : Observation Float) : Json := .array [.string o.date, .ofOption o.value]

def DateIndex.toJson (index : DateIndex) : Json := .object [("labels", .array (index.labels.map .string))]

def DateRange.toJson (range : DateRange) : Json :=
  .object [("start", .ofText? (range.start.map Date.text)), ("end", .ofText? (range.stop.map Date.text))]

/-- The observations of a series in order. -/
def Series.observationsToJson (s : Series Float) : Json := .array (s.observations.map Observation.toJson)

/-- A series is an object of its name and its two columns. -/
def Series.toJson (s : Series Float) : Json :=
  .object [("name", .string s.name), ("index", s.index.toJson), ("values", .array (s.values.map .ofOption))]

/-- A value is a number or the observations of a series. -/
def Value.toJson : Value Float → Json
  | scalar x => .number x
  | series s => s.observationsToJson

def Policy.toJson (policy : Policy) : Json :=
  .object [("max_depth", .natural policy.maxDepth), ("max_formula_len", .natural policy.maxLength)]

def CallOutcome.toJson : CallOutcome Float → Json
  | scalar value => .object [("kind", .string "scalar"), ("value", .number value)]
  | series length => .object [("kind", .string "series"), ("len", .natural length)]
  | failed message => .object [("kind", .string "failed"), ("message", .string message)]

def CallRecord.toJson (record : CallRecord Float) : Json :=
  .object [("depth", .natural record.depth), ("function", .string record.function),
    ("argument_kinds", .array (record.argumentKinds.map ValueKind.toJson)), ("outcome", record.outcome.toJson)]

/-- A ledger is an object of its records. -/
def Ledger.toJson (ledger : Ledger Float) : Json := .object [("records", .array (ledger.records.map CallRecord.toJson))]

namespace Expr

mutual

def toJson : Expr Float → Json
  | call name args =>
    .object [("kind", .string "call"), ("name", .string name), ("args", .array (listToJson args))]
  | identifier name => .object [("kind", .string "identifier"), ("name", .string name)]
  | literal value => .object [("kind", .string "literal"), ("value", .number value)]

def listToJson : List (Expr Float) → List Json
  | [] => []
  | e :: es => toJson e :: listToJson es

end

end Expr

end SeriesFormula
