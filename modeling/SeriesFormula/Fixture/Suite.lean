import SeriesFormula.Fixture.Basic
import SeriesFormula.Source.Folder

/-!
# Suites of fixtures

A suite runs fixtures in the order of their case ids and reports what passes. The fixtures of a folder are the files
below `cases` whose names end in `.json`, taken in the order of their paths.
-/

namespace SeriesFormula

/-- The results of a suite, with the numbers of all of them, of those that are as expected and of the others. -/
structure SuiteReport where
  suite : String
  fixtureCount : Nat
  passed : Nat
  failed : Nat
  results : List CaseResult

/-- Why a suite has no report, or a report is not accepted. -/
inductive SuiteError where
  | file (error : FileError)
  /-- A fixture that is refused. -/
  | fixture (path : List String) (error : Json.ReadError)
  | unknownCase (caseId : String)
  | notGreen (failed fixtureCount : Nat)
  deriving DecidableEq

namespace SuiteReport

/-- The results that are not as expected. -/
def failures (report : SuiteReport) : List CaseResult := report.results.filter fun result => result.status == .fail

/-- Whether results were counted and none of them as a failure. -/
def isGreen (report : SuiteReport) : Bool := report.failed == 0 && 0 < report.fixtureCount

def enforceGreen (report : SuiteReport) : Except SuiteError Unit :=
  if report.isGreen then .ok () else .error (.notGreen report.failed report.fixtureCount)

/-- Runs the fixtures and counts the results. -/
def ofFixtures (suite : String) (fixtures : List Fixture) : SuiteReport :=
  let results := fixtures.map Fixture.run
  let failed := results.countP fun result => result.status == .fail
  { suite
    fixtureCount := results.length
    passed := results.length - failed
    failed
    results }

def toJson (report : SuiteReport) : Json :=
  .object [
    ("suite", .string report.suite),
    ("fixture_count", .natural report.fixtureCount),
    ("passed", .natural report.passed),
    ("failed", .natural report.failed),
    ("results", .array (report.results.map CaseResult.toJson))]

end SuiteReport

namespace SuiteError

def kind : SuiteError → String
  | file _ => "io"
  | fixture .. => "fixture_format"
  | unknownCase _ => "unknown_case"
  | notGreen .. => "not_green"

def message : SuiteError → String
  | file error => error.message
  | fixture path error => "fixture " ++ String.intercalate "/" path ++ ": " ++ error.message
  | unknownCase caseId => "no fixture with case id " ++ Text.quoted caseId
  | notGreen failed fixtureCount => s!"suite is not green: {failed} of {fixtureCount} case(s) failed"

end SuiteError

namespace Suite

/-- Fixtures in the order of their case ids; those with the same keep their order. -/
def sortById (fixtures : List Fixture) : List Fixture := fixtures.mergeSort fun a b => a.caseId ≤ b.caseId

/-- The report of all fixtures, or of those with a case id. -/
def report (fixtures : List Fixture) (caseId : Option String) : Except SuiteError SuiteReport :=
  match caseId with
  | none => .ok (.ofFixtures "formula_cases" (sortById fixtures))
  | some id =>
    match sortById (fixtures.filter fun fixture => fixture.caseId == id) with
    | [] => .error (.unknownCase id)
    | found => .ok (.ofFixtures ("formula_cases:" ++ id) found)

/-! ## Fixtures in folders -/

/-- The part of a name behind its last point, if there is something before the point. -/
def extension? (name : String) : Option String :=
  let behind := name.toList.reverse.takeWhile (· ≠ '.')
  match name.toList.reverse.dropWhile (· ≠ '.') with
  | '.' :: _ :: _ => some (String.ofList behind.reverse)
  | _ => none

def casesFolder : String := "cases"

/-- The fixture files of a folder with their contents, in the order of their paths. -/
def fixtureFiles (root : Entry) : Except FileError (List (List String × Option String)) :=
  match root.find [] [casesFolder] with
  | .error _ => .ok []
  | .ok (.file _) => .error .notFolder
  | .ok (.folder entries) =>
    let fixtures := (Entry.folder entries).files.filter fun (path, _) => path.getLast?.bind extension? == some "json"
    .ok ((fixtures.mergeSort fun a b => (compare a.1 b.1).isLE).map fun (path, content) => (casesFolder :: path, content))

/-- The number of fixture files, zero if they cannot be listed. -/
def countFiles (root : Entry) : Nat :=
  match fixtureFiles root with
  | .ok files => files.length
  | .error _ => 0

def loadFixture (file : List String × Option String) : Except SuiteError Fixture :=
  match file.2 with
  | none => .error (.file .notText)
  | some text => (Fixture.reader.run text).mapError (.fixture file.1)

/-- The report of the fixtures in a folder, all or those with a case id. Every file must hold a fixture. -/
def run (root : Entry) (caseId : Option String) : Except SuiteError SuiteReport := do
  let files ← (fixtureFiles root).mapError .file
  let fixtures ← files.mapM loadFixture
  report fixtures caseId

end Suite

end SeriesFormula
