import SeriesFormula.Command.Check
import SeriesFormula.Command.Evaluate

/-!
# The programs

`main` is the program that evaluates a formula and `Check.main` the one that runs the fixtures. Both leave every
decision to the commands: here files are read and written, and output is printed.
-/

namespace SeriesFormula

open Command

/-- The cause of a failure of the system. -/
def FileError.ofSystem : IO.Error → FileError
  | .noFileOrDirectory .. => .missing
  | .inappropriateType _ 21 _ => .folder
  | .inappropriateType .. => .notFolder
  | error => .other error.toString

def readFile (path : String) : IO (Except FileError String) := do
  try
    match String.fromUTF8? (← IO.FS.readBinFile path) with
    | some text => return .ok text
    | none => return .error .notText
  catch error => return .error (.ofSystem error)

/-- Reads files in order, up to the first that cannot be read. -/
def readFiles : List String → IO (List (String × Except FileError String))
  | [] => return []
  | path :: paths => do
    match ← readFile path with
    | .error error => return [(path, .error error)]
    | .ok text => return (path, .ok text) :: (← readFiles paths)

/-- The folder that a path leads into, if the path has one. -/
def folderOf? (path : String) : Option String :=
  match (path.splitOn "/").dropLast with
  | [] | [""] => none
  | names => some (String.intercalate "/" names)

/-- Writes a file and the folders on the way to it. -/
def writeFile (path text : String) : IO (Except FileError Unit) := do
  try
    if let some folder := folderOf? path then IO.FS.createDirAll folder
    IO.FS.writeFile path text
    return .ok ()
  catch error => return .error (.ofSystem error)

/-- Prints an output and gives its exit code. -/
def Command.Output.print (output : Output) : IO UInt32 := do
  IO.print output.stdout
  IO.eprint output.stderr
  return output.exit.toUInt32

def Check.main (args : List String) : IO UInt32 := do
  match CheckRequest.prepare args with
  | .error output => output.print
  | .ok (request, report) =>
    match request.report with
    | none => (request.conclude report (.ok ())).print
    | some path => (request.conclude report (← writeFile path report.toJson.indented)).print

end SeriesFormula

/-- The program that evaluates a formula. -/
def main (args : List String) : IO UInt32 := do
  match SeriesFormula.Command.EvaluateCommand.parse args with
  | .error message => (SeriesFormula.Command.Output.failure message).print
  | .ok command =>
    let contents ← SeriesFormula.readFiles command.paths
    (command.output fun path => (contents.lookup path).getD (.error .missing)).print
