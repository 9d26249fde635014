import SeriesFormula.Formula.Policy
import SeriesFormula.Series.Basic
import SeriesFormula.Number

/-!
# Values and errors of formulas

A formula has a number or a series as its value, or fails with a `FormulaError`.
-/

namespace SeriesFormula

/-- The two kinds of values. -/
inductive ValueKind where
  | scalar
  | series
  deriving DecidableEq

def ValueKind.text : ValueKind → String
  | scalar => "scalar"
  | series => "series"

/-- The value of a formula. -/
inductive Value (α : Type) where
  | scalar (value : α)
  | series (s : Series α)
  deriving DecidableEq

def Value.kind {α : Type} : Value α → ValueKind
  | scalar _ => .scalar
  | series _ => .series

/-- Why a formula has no value. -/
inductive FormulaError (α : Type) where
  /-- The text holds nothing but blanks. -/
  | empty
  /-- A call names no function. -/
  | unknownFunction (name : String)
  /-- An identifier names no series. -/
  | unknownIdentifier (name : String)
  /-- A part of the text is no expression. -/
  | invalidExpression (fragment : String)
  /-- A function has too few or too many arguments. -/
  | wrongArity (function : String) (expected got : Nat)
  /-- A number of periods is no positive whole number, or too large. -/
  | invalidPeriods (function : String) (value : α)
  /-- An argument has the other kind. -/
  | wrongArgumentKind (function : String) (position : Nat) (expected found : ValueKind)
  /-- The formula exceeds a limit. -/
  | limit (excess : LimitExceeded)
  deriving DecidableEq

namespace FormulaError

variable {α : Type}

def kind : FormulaError α → String
  | empty => "empty_formula"
  | unknownFunction _ => "unknown_function"
  | unknownIdentifier _ => "unknown_identifier"
  | invalidExpression _ => "invalid_expression"
  | wrongArity .. => "wrong_arity"
  | invalidPeriods .. => "invalid_periods"
  | wrongArgumentKind .. => "wrong_argument_kind"
  | limit excess => excess.kind

def message [Number α] : FormulaError α → String
  | empty => "formula is empty"
  | unknownFunction name => "unknown function: " ++ name
  | unknownIdentifier name => "unknown series identifier: " ++ name
  | invalidExpression fragment => "invalid expression: '" ++ fragment ++ "'"
  | wrongArity function expected got => s!"{function} expects {expected} parameter(s), got {got}"
  | invalidPeriods function value =>
    function ++ ": periods must be a positive integer, got " ++ Number.text value
  | wrongArgumentKind function position expected found =>
    s!"{function}: argument {position} must be a {expected.text}, got a {found.text}"
  | limit excess => excess.message

end FormulaError

end SeriesFormula
