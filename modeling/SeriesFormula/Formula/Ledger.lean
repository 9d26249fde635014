import SeriesFormula.Formula.Value

/-!
# Ledgers of calls

A `Ledger` records the calls of an evaluation in the order in which they end. Each record has a line of text, with two
blanks in front for each call around it.
-/

namespace SeriesFormula

/-- How a call ended. -/
inductive CallOutcome (α : Type) where
  | scalar (value : α)
  | series (length : Nat)
  | failed (message : String)
  deriving DecidableEq

/-- A call: its depth, from one on, its function, the kinds of its arguments and how it ended. -/
structure CallRecord (α : Type) where
  depth : Nat
  function : String
  argumentKinds : List ValueKind
  outcome : CallOutcome α
  deriving DecidableEq

/-- The calls of evaluations in order. -/
structure Ledger (α : Type) where
  records : List (CallRecord α)
  deriving DecidableEq

variable {α : Type}

/-- How a call ended, from its value or error. -/
def CallOutcome.ofResult [Number α] : Except (FormulaError α) (Value α) → CallOutcome α
  | .ok (.scalar value) => scalar value
  | .ok (.series s) => series s.length
  | .error error => failed error.message

def CallOutcome.text [Number α] : CallOutcome α → String
  | scalar value => "scalar " ++ Number.text value
  | series length => s!"series[{length}]"
  | failed message => "error: " ++ message

/-- The line of a record. The width of its indentation has no bound here; a formatter whose widths are words of 16 bits
would fail at depths above 32768. -/
def CallRecord.line [Number α] (record : CallRecord α) : String :=
  let indent := String.ofList (List.replicate ((record.depth - 1) * 2) ' ')
  let kinds := String.intercalate ", " (record.argumentKinds.map ValueKind.text)
  indent ++ record.function ++ "(" ++ kinds ++ ") -> " ++ record.outcome.text

def Ledger.empty : Ledger α := ⟨[]⟩

def Ledger.append (ledger : Ledger α) (records : List (CallRecord α)) : Ledger α := ⟨ledger.records ++ records⟩

def Ledger.text [Number α] (ledger : Ledger α) : String :=
  String.intercalate "\n" (ledger.records.map CallRecord.line)

end SeriesFormula
