import Std.Data.TreeMap.Basic
import SeriesFormula.Formula.Function

/-!
# Tables of functions

A `Registry` finds functions by their exact name and lists them in the order of their names. `Registry.builtin` holds
the eleven functions of formulas.
-/

namespace SeriesFormula

/-- Functions by name. -/
structure Registry (α : Type) where
  functions : Std.TreeMap String (FunctionSpec α)

namespace Registry

variable {α : Type}

def empty : Registry α := ⟨∅⟩

/-- Adds a function, or replaces the one of its name. -/
def register (registry : Registry α) (spec : FunctionSpec α) : Registry α :=
  ⟨registry.functions.insert spec.name spec⟩

def get? (registry : Registry α) (name : String) : Option (FunctionSpec α) := registry.functions[name]?

def size (registry : Registry α) : Nat := registry.functions.size

/-- The functions in the order of their names. -/
def toList (registry : Registry α) : List (FunctionSpec α) := registry.functions.values

/-- The names with the numbers of arguments, in order. -/
def names (registry : Registry α) : List (String × Nat) := registry.toList.map fun spec => (spec.name, spec.arity)

def ofList (specs : List (FunctionSpec α)) : Registry α := specs.foldl register empty

end Registry

def builtinFunctions {α : Type} [Number α] : List (FunctionSpec α) := [
  ⟨"SUM", "sum of present values", .aggregate Statistics.sum⟩,
  ⟨"AVG", "mean of present values, 0 when empty", .aggregate Statistics.mean⟩,
  ⟨"MIN", "smallest present value, 0 when empty", .aggregate Statistics.least⟩,
  ⟨"MAX", "largest present value, 0 when empty", .aggregate Statistics.greatest⟩,
  ⟨"COUNT", "number of present values", .aggregate Statistics.count⟩,
  ⟨"ROC", "rate of change in percent over N periods", .indicator Statistics.rateOfChange⟩,
  ⟨"MA", "simple moving average over N periods", .indicator Statistics.movingAverage⟩,
  ⟨"RSI", "relative strength index over N periods (simple averages)", .indicator Statistics.strengthIndex⟩,
  ⟨"MOMENTUM", "difference to the value N periods earlier", .indicator Statistics.momentum⟩,
  ⟨"CORRELATION", "Pearson correlation over the trailing common length", .pairwise Statistics.correlation⟩,
  ⟨"REGRESSION", "least-squares trend line against the observation step", .transform Statistics.regression⟩]

/-- The table of the functions of formulas. -/
def Registry.builtin {α : Type} [Number α] : Registry α := ofList builtinFunctions

end SeriesFormula
