import SeriesFormula.Formula.Evaluate
import SeriesFormula.Source.Document

/-!
# Fixtures

A fixture is a formula with its data and what must come of it: a number, observations, or an error of some kind. Two
numbers agree if they are equal or within the tolerance of each other.
-/

namespace SeriesFormula

/-- What must come of a formula. -/
inductive Expected where
  | scalar (value : Float)
  | series (observations : List (Observation Float))
  /-- A failure of the kind. -/
  | error (kind : String)

/-- A formula with its data and what must come of it. -/
structure Fixture where
  caseId : String
  formula : String
  context : ObservationMap
  expected : Expected
  tolerance : Option Float

/-- Whether a fixture came out as expected. -/
inductive CaseStatus where
  | pass
  | fail
  deriving DecidableEq

def CaseStatus.text : CaseStatus → String
  | pass => "pass"
  | fail => "fail"

/-- The result of a fixture; `mismatch` says why it fails. -/
structure CaseResult where
  caseId : String
  formula : String
  status : CaseStatus
  mismatch : Option String
  functionCalls : Nat

def CaseResult.passes (result : CaseResult) : Bool := result.status == .pass

namespace Fixture

def defaultTolerance : Float := 1e-9

/-- The data as a context, each series named by its identifier. -/
def evalContext (fixture : Fixture) : Context Float :=
  .ofList (fixture.context.toList.map fun (id, observations) => (id, ⟨id, observations⟩))

def agree (tolerance actual expected : Float) : Bool :=
  actual == expected || (actual - expected).abs ≤ tolerance

/-- Whether two values agree; missing ones agree with each other only. -/
def valuesAgree (tolerance : Float) : Option Float → Option Float → Bool
  | none, none => true
  | some a, some b => agree tolerance a b
  | _, _ => false

def describe (value : Option Float) : String :=
  match value with
  | none => "None"
  | some x => "Some(" ++ Decimal.pointed.text x ++ ")"

/-- How an observation at a position differs from the expected one. -/
def observationMismatch? (tolerance : Float) (position : Nat) (actual expected : Observation Float) : Option String :=
  if actual.date ≠ expected.date then
    some s!"date mismatch at {position}: actual={actual.date}, expected={expected.date}"
  else if valuesAgree tolerance actual.value expected.value then none
  else some s!"value mismatch at {actual.date}: actual={describe actual.value}, expected={describe expected.value}"

/-- How a series first differs from expected observations. -/
def seriesMismatch? (tolerance : Float) (actual : Series Float) (expected : List (Observation Float)) :
    Option String :=
  if actual.length ≠ expected.length then
    some s!"series length mismatch: actual={actual.length}, expected={expected.length}"
  else
    ((actual.observations.zip expected).zipIdx).findSome? fun ((a, b), position) =>
      observationMismatch? tolerance position a b

/-- How an outcome differs from the expected one. -/
def mismatch? (tolerance : Float) (expected : Expected) (outcome : Except (FormulaError Float) (Value Float)) :
    Option String :=
  match expected, outcome with
  | .error kind, .error error =>
    if error.kind = kind then none
    else some s!"error kind mismatch: actual={error.kind}, expected={kind} ({error.message})"
  | _, .error error => some s!"unexpected error: {error.kind} ({error.message})"
  | .error kind, .ok value => some s!"expected error {kind}, got a {value.kind.text} result"
  | .scalar expected, .ok (.scalar actual) =>
    if agree tolerance actual expected then none
    else some s!"scalar mismatch: actual={Decimal.plain.text actual}, expected={Decimal.plain.text expected}"
  | .series expected, .ok (.series actual) => seriesMismatch? tolerance actual expected
  | _, .ok value => some s!"result kind mismatch: actual={value.kind.text}"

/-- Evaluates the formula of a fixture and compares. -/
def run (fixture : Fixture) : CaseResult :=
  let evaluation := Engine.standard.run fixture.formula fixture.evalContext.store
  let mismatch := mismatch? (fixture.tolerance.getD defaultTolerance) fixture.expected evaluation.result
  { caseId := fixture.caseId
    formula := fixture.formula
    status := if mismatch.isNone then .pass else .fail
    mismatch
    functionCalls := evaluation.records.length }

end Fixture

/-! ## Documents of fixtures -/

open Json

def Expected.toJson : Expected → Json
  | scalar value => .object [("scalar", .number value)]
  | series observations => .object [("series", .array (observations.map Observation.toJson))]
  | error kind => .object [("error", .string kind)]

def Expected.reader : Reader Expected :=
  .variant [
    ("scalar", .holding (Reader.number.check fun value => return .scalar value)),
    ("series", .holding ((Reader.list Observation.reader).check fun observations => return .series observations)),
    ("error", .holding (Reader.text.check fun kind => return .error kind))]

namespace Fixture

def toJson (fixture : Fixture) : Json :=
  .object [
    ("case_id", .string fixture.caseId),
    ("formula", .string fixture.formula),
    ("context", .object (fixture.context.toList.map fun (id, observations) =>
      (id, .array (observations.map Observation.toJson)))),
    ("expected", fixture.expected.toJson),
    ("tolerance", .ofOption fixture.tolerance)]

/-- A fixture that is being read. -/
structure Draft where
  caseId : Option String := none
  formula : Option String := none
  context : Option ObservationMap := none
  expected : Option Expected := none
  tolerance : Option (Option Float) := none

def reader : Reader Fixture :=
  (Reader.record [
    .slot "case_id" Draft.caseId (fun draft v => { draft with caseId := some v }) .text false,
    .slot "formula" Draft.formula (fun draft v => { draft with formula := some v }) .text false,
    .slot "context" Draft.context (fun draft v => { draft with context := some v }) ObservationMap.reader true,
    .slot "expected" Draft.expected (fun draft v => { draft with expected := some v }) Expected.reader false,
    .slot "tolerance" Draft.tolerance (fun draft v => { draft with tolerance := some v }) (.optional .number) true]
    {}).check
  fun draft => return {
    caseId := ← Reader.required draft.caseId
    formula := ← Reader.required draft.formula
    context := draft.context.getD ∅
    expected := ← Reader.required draft.expected
    tolerance := draft.tolerance.join }

end Fixture

def CaseResult.toJson (result : CaseResult) : Json :=
  .object [
    ("case_id", .string result.caseId),
    ("formula", .string result.formula),
    ("status", .string result.status.text),
    ("mismatch", .ofText? result.mismatch),
    ("function_calls", .natural result.functionCalls)]

end SeriesFormula
