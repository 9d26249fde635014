import SeriesFormula.Command.Output
import SeriesFormula.Formula.Evaluate
import SeriesFormula.Source.Load

/-!
# The command that evaluates a formula

The arguments name a formula, the files of its data, a range of dates and a form of output. `EvaluateCommand.parse`
reads them, and `EvaluateCommand.run` does the rest with the contents of the files.
-/

namespace SeriesFormula.Command

/-- The forms of output. -/
inductive Format where
  | json
  | csv
  deriving DecidableEq, Repr

/-- A formula to evaluate with its data. -/
structure Request where
  formula : String
  sources : Sources
  format : Format
  trace : Bool

/-- What the arguments ask for. -/
inductive EvaluateCommand where
  /-- A text. -/
  | show (text : String)
  /-- A value. -/
  | evaluate (request : Request)

/-- The arguments as far as they were read. -/
structure EvaluateArgs where
  formula : Option String := none
  tables : List (String × String) := []
  documents : List String := []
  start : Option String := none
  stop : Option String := none
  format : Format := .json
  trace : Bool := false

namespace EvaluateCommand

/-- A text with blanks behind it up to a width. -/
def padEnd (width : Nat) (text : String) : String :=
  text ++ String.ofList (List.replicate (width - text.length) ' ')

/-- The line of a function in the list of functions. -/
def functionLine (spec : FunctionSpec Float) : String :=
  line (padEnd 12 spec.name ++ s!" {spec.arity} arg(s)  " ++ spec.summary)

def functionList : String := String.join (Registry.builtin.toList.map functionLine)

def help : String := String.join (List.map line [
  "econseries-cli",
  "Usage:",
  "\teconseries-cli --formula <F> [--series ID=PATH.csv]... [--context PATH.json] [--from DATE] [--to DATE] " ++
    "[--format json|csv] [--trace]",
  "Options:",
  "\t-f, --formula <F>      formula to evaluate, e.g. \"ROC(MA(GDP,3),2)\"",
  "\t--series <ID=PATH>     load a date,value CSV as series ID (repeatable)",
  "\t--context <path>       load a JSON object of id -> [[date, value], ...] (repeatable)",
  "\t--from <YYYY-MM-DD>    drop observations before this date",
  "\t--to <YYYY-MM-DD>      drop observations after this date",
  "\t--format <json|csv>    output format (csv needs a series result; default json)",
  "\t--trace                print each function call to stderr",
  "\t--list-functions       list the built-in functions and exit",
  "\t-h, --help             show this help"])

/-- An identifier and a path with an equals sign between them. -/
def table? (text : String) : Option (String × String) :=
  let cs := text.toList
  let id := cs.takeWhile (· ≠ '=')
  match cs.dropWhile (· ≠ '=') with
  | '=' :: path => if id.isEmpty || path.isEmpty then none else some (String.ofList id, String.ofList path)
  | _ => none

def format? : String → Option Format
  | "json" => some .json
  | "csv" => some .csv
  | _ => none

/-- The command of arguments that have been read to the end. -/
def finish (args : EvaluateArgs) : Except String EvaluateCommand := do
  let some formula := args.formula | throw "--formula is required (see --help)"
  let range ← (DateRange.ofLabels args.start args.stop).mapError DataError.message
  return .evaluate ⟨formula, ⟨args.tables, args.documents, range⟩, args.format, args.trace⟩

/-- Reads arguments one after the other. Of an option that is given twice the last counts. -/
def parseFrom (args : EvaluateArgs) : List String → Except String EvaluateCommand
  | [] => finish args
  | "--trace" :: rest => parseFrom { args with trace := true } rest
  | "--list-functions" :: _ => .ok (.show functionList)
  | "--help" :: _ | "-h" :: _ => .ok (.show help)
  | "--formula" :: value :: rest | "-f" :: value :: rest => parseFrom { args with formula := some value } rest
  | "--series" :: value :: rest =>
    match table? value with
    | some entry => parseFrom { args with tables := args.tables ++ [entry] } rest
    | none => .error ("--series expects ID=PATH, got " ++ value)
  | "--context" :: value :: rest => parseFrom { args with documents := args.documents ++ [value] } rest
  | "--from" :: value :: rest => parseFrom { args with start := some value } rest
  | "--to" :: value :: rest => parseFrom { args with stop := some value } rest
  | "--format" :: value :: rest =>
    match format? value with
    | some format => parseFrom { args with format } rest
    | none => .error ("unsupported format: " ++ value)
  | ["--formula"] | ["-f"] => .error "--formula requires a formula"
  | ["--series"] => .error "--series requires ID=PATH"
  | ["--context"] => .error "--context requires a path"
  | ["--from"] => .error "--from requires a date (YYYY-MM-DD)"
  | ["--to"] => .error "--to requires a date (YYYY-MM-DD)"
  | ["--format"] => .error "--format requires json or csv"
  | other :: _ => .error ("unknown argument: " ++ other)

def parse (args : List String) : Except String EvaluateCommand := parseFrom {} args

def showValue (format : Format) (value : Value Float) : Except String String :=
  match format, value with
  | .json, value => .ok (line value.toJson.compact)
  | .csv, .series s => .ok s.table
  | .csv, .scalar _ => .error "csv output needs a series result; use --format json"

/-- Evaluates a formula with the contents of its files. -/
def answer (request : Request) (files : Files) : Output :=
  match request.sources.load files with
  | .error error => .failure error.message
  | .ok context =>
    let evaluation := Engine.standard.run request.formula context.store
    let trace := if request.trace && !evaluation.records.isEmpty then line (Ledger.text ⟨evaluation.records⟩) else ""
    match (evaluation.result.mapError FormulaError.message).bind (showValue request.format) with
    | .ok text => { stdout := text, stderr := trace }
    | .error message => { exit := 1, stderr := trace ++ line message }

def paths : EvaluateCommand → List String
  | .show _ => []
  | .evaluate request => request.sources.paths

def output (command : EvaluateCommand) (files : Files) : Output :=
  match command with
  | .show text => { stdout := text }
  | .evaluate request => answer request files

def run (args : List String) (files : Files) : Output :=
  match parse args with
  | .error message => .failure message
  | .ok command => command.output files

end EvaluateCommand

end SeriesFormula.Command
