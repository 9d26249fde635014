import SeriesFormula.Command.Output
import SeriesFormula.Fixture.Bundled
import SeriesFormula.Fixture.Suite

/-!
# The command that runs the fixtures

The command runs the fixtures of the library, or those with a case id, prints a line for each and one for all, and
may write the report to a file.
-/

namespace SeriesFormula.Command

/-- What the arguments ask for. -/
structure CheckRequest where
  caseId : Option String := none
  report : Option String := none
  requireGreen : Bool := false

/-- Why the command ends early. -/
inductive CheckError where
  /-- An argument that is refused. -/
  | argument (message : String)
  | suite (error : SuiteError)

namespace CheckError

def describeFile : FileError → String
  | .missing => "Os \x7b code: 2, kind: NotFound, message: \"No such file or directory\" \x7d"
  | .folder => "Os \x7b code: 21, kind: IsADirectory, message: \"Is a directory\" \x7d"
  | .notFolder => "Os \x7b code: 20, kind: NotADirectory, message: \"Not a directory\" \x7d"
  | .notText => "Error \x7b kind: InvalidData, message: \"stream did not contain valid UTF-8\" \x7d"
  | .nameTooLong => "Os \x7b code: 36, kind: InvalidFilename, message: \"File name too long\" \x7d"
  | .zeroByte => "Error \x7b kind: InvalidInput, message: \"file name contained an unexpected NUL byte\" \x7d"
  | .other message => message

def describe : CheckError → String
  | argument message => Text.quoted message
  | suite (.file error) => "Io(" ++ describeFile error ++ ")"
  | suite (.unknownCase caseId) => "UnknownCase(" ++ Text.quoted caseId ++ ")"
  | suite (.notGreen failed fixtureCount) =>
    s!"NotGreen \x7b failed: {failed}, fixture_count: {fixtureCount} \x7d"
  | suite (.fixture path _) =>
    "FixtureFormat \x7b path: " ++ Text.quoted (String.intercalate "/" path) ++ " \x7d"

end CheckError

namespace CheckRequest

def help : String := String.join (List.map line [
  "es-conformance-cli",
  "Usage:",
  "\tes-conformance-cli [--case-id ID] [--write-report PATH] [--require-green]",
  "Options:",
  "\t--case-id <id>        Run only one fixture case",
  "\t--write-report <path> Write the suite report as JSON",
  "\t--require-green       Exit non-zero when any case fails",
  "\t-h, --help            Show this help"])

/-- Reads arguments one after the other; `none` asks for help. -/
def parseFrom (request : CheckRequest) : List String → Except String (Option CheckRequest)
  | [] => .ok (some request)
  | "--require-green" :: rest => parseFrom { request with requireGreen := true } rest
  | "--help" :: _ | "-h" :: _ => .ok none
  | "--case-id" :: value :: rest => parseFrom { request with caseId := some value } rest
  | "--write-report" :: value :: rest => parseFrom { request with report := some value } rest
  | ["--case-id"] => .error "--case-id requires a value (e.g. ma_window_two)"
  | ["--write-report"] => .error "--write-report requires a path"
  | other :: _ => .error ("unknown argument: " ++ other)

def resultLine (result : CaseResult) : String :=
  match result.mismatch with
  | some mismatch => line s!"FAIL {result.caseId} `{result.formula}`: {mismatch}"
  | none => line ("pass " ++ result.caseId)

def summaryLine (report : SuiteReport) : String :=
  line (s!"suite={report.suite} fixtures={report.fixtureCount} passed={report.passed} failed={report.failed} " ++
    "green=" ++ (if report.isGreen then "true" else "false"))

/-- A command that ends with an error after some output. -/
def fail (stdout : String) (error : CheckError) : Output :=
  { exit := 1, stdout, stderr := line ("Error: " ++ error.describe) }

/-- The output up to the writing of the report. -/
def printed (report : SuiteReport) : String := String.join (report.results.map resultLine) ++ summaryLine report

/-- The whole output, once the report was written or not. -/
def conclude (request : CheckRequest) (report : SuiteReport) (written : Except FileError Unit) : Output :=
  match written with
  | .error error => fail (printed report) (.suite (.file error))
  | .ok () =>
    let notes := (request.report.map fun path => line ("wrote report=" ++ path)).getD ""
    let stdout := printed report ++ notes
    match report.enforceGreen with
    | .error error => if request.requireGreen then fail stdout (.suite error) else { stdout }
    | .ok () => { stdout }

/-- What arguments ask for with the report of it, or the output where there is no report. -/
def prepare (args : List String) : Except Output (CheckRequest × SuiteReport) :=
  match parseFrom {} args with
  | .error message => .error (fail "" (.argument message))
  | .ok none => .error { stdout := help }
  | .ok (some request) =>
    match Suite.report Fixture.bundled request.caseId with
    | .error error => .error (fail "" (.suite error))
    | .ok report => .ok (request, report)

/-- The output for arguments, and the folder after it. -/
def run (args : List String) (root : Entry) : Output × Entry :=
  match prepare args with
  | .error output => (output, root)
  | .ok (request, report) =>
    match request.report with
    | none => (request.conclude report (.ok ()), root)
    | some path =>
      match root.writeText path report.toJson.indented with
      | .error error => (request.conclude report (.error error), root)
      | .ok root => (request.conclude report (.ok ()), root)

end CheckRequest

end SeriesFormula.Command
