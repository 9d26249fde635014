/-!
# Output of commands
-/

namespace SeriesFormula.Command

/-- What a command writes to its two streams, and its exit code. -/
structure Output where
  exit : Nat := 0
  stdout : String := ""
  stderr : String := ""
  deriving DecidableEq

def line (text : String) : String := text ++ "\n"

/-- A failure that is reported in a line. -/
def Output.failure (message : String) : Output := { exit := 1, stderr := line message }

end SeriesFormula.Command
