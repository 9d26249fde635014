import SeriesFormula.Formula.Value
import SeriesFormula.Statistics.Correlation
import SeriesFormula.Statistics.Indicator
import SeriesFormula.Statistics.Regression

/-!
# Functions of formulas

What a function takes and gives is fixed by its `Implementation`. `FunctionSpec.call` checks the number of arguments,
then each argument from left to right, and applies the function.
-/

namespace SeriesFormula

/-- How a function is computed from its arguments. -/
inductive Implementation (α : Type) where
  /-- A number from a series. -/
  | aggregate (f : Series α → α)
  /-- A series from a series and a number of periods. -/
  | indicator (f : Series α → Nat → Series α)
  /-- A number from two series. -/
  | pairwise (f : Series α → Series α → α)
  /-- A series from a series. -/
  | transform (f : Series α → Series α)

def Implementation.arity {α : Type} : Implementation α → Nat
  | aggregate _ | transform _ => 1
  | indicator _ | pairwise _ => 2

/-- A function with its name and what it does in a few words. -/
structure FunctionSpec (α : Type) where
  name : String
  summary : String
  implementation : Implementation α

def maxPeriods : Nat := Nat.pow 2 32 - 1

/-- The number of periods that a number stands for: a whole number from 1 to `maxPeriods`. -/
def periods? {α : Type} [Number α] (x : α) : Option Nat :=
  (Number.natural? x).filter fun n => 1 ≤ n && n ≤ maxPeriods

namespace FunctionSpec

variable {α : Type}

def arity (spec : FunctionSpec α) : Nat := spec.implementation.arity

/-- The series that an argument is; `position` counts from one. -/
def seriesArgument (spec : FunctionSpec α) (position : Nat) : Value α → Except (FormulaError α) (Series α)
  | .series s => .ok s
  | v => .error (.wrongArgumentKind spec.name position .series v.kind)

/-- The number of periods that an argument is. -/
def periodsArgument [Number α] (spec : FunctionSpec α) (position : Nat) : Value α → Except (FormulaError α) Nat
  | .scalar x =>
    match periods? x with
    | some p => .ok p
    | none => .error (.invalidPeriods spec.name x)
  | v => .error (.wrongArgumentKind spec.name position .scalar v.kind)

/-- The value of the function for arguments. -/
def call [Number α] (spec : FunctionSpec α) (args : List (Value α)) : Except (FormulaError α) (Value α) :=
  match spec.implementation, args with
  | .aggregate f, [x] => do
    let s ← spec.seriesArgument 1 x
    return .scalar (f s)
  | .indicator f, [x, y] => do
    let s ← spec.seriesArgument 1 x
    let p ← spec.periodsArgument 2 y
    return .series (f s p)
  | .pairwise f, [x, y] => do
    let left ← spec.seriesArgument 1 x
    let right ← spec.seriesArgument 2 y
    return .scalar (f left right)
  | .transform f, [x] => do
    let s ← spec.seriesArgument 1 x
    return .series (f s)
  | implementation, args => .error (.wrongArity spec.name implementation.arity args.length)

end FunctionSpec

end SeriesFormula
