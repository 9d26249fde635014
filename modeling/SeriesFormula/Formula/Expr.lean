import Std.Data.TreeSet.Basic
import SeriesFormula.Number
import SeriesFormula.Text.Case

/-!
# Expressions

The tree of a formula: calls of functions, identifiers of series and numbers. `Expr.text` is its canonical form,
without blanks and with the numbers in plain digits.
-/

namespace SeriesFormula

/-- A formula. -/
inductive Expr (α : Type) where
  /-- A function applied to arguments. -/
  | call (name : String) (args : List (Expr α))
  /-- The name of a series. -/
  | identifier (name : String)
  /-- A number. -/
  | literal (value : α)
  deriving BEq

namespace Expr

variable {α : Type}

mutual

/-- How deep calls are nested; identifiers and literals have depth zero. -/
def depth : Expr α → Nat
  | call _ args => 1 + depthOfList args
  | identifier _ => 0
  | literal _ => 0

def depthOfList : List (Expr α) → Nat
  | [] => 0
  | e :: es => max e.depth (depthOfList es)

end

mutual

/-- The identifiers of an expression from left to right. -/
def identifiers : Expr α → List String
  | call _ args => identifiersOfList args
  | identifier name => [name]
  | literal _ => []

/-- The identifiers of a list of expressions. -/
def identifiersOfList : List (Expr α) → List String
  | [] => []
  | e :: es => e.identifiers ++ identifiersOfList es

end

/-- The series that an expression refers to, in small letters, sorted, each once. -/
def referencedSeries (e : Expr α) : List String :=
  (Std.TreeSet.ofList (e.identifiers.map Text.lower)).toList

mutual

def chars [Number α] : Expr α → List Char
  | call name args => name.toList ++ '(' :: charsOfList args ++ [')']
  | identifier name => name.toList
  | literal value => (Number.text value).toList

/-- The canonical forms of a list of arguments with commas between them. -/
def charsOfList [Number α] : List (Expr α) → List Char
  | [] => []
  | [e] => e.chars
  | e :: es => e.chars ++ ',' :: charsOfList es

end

def text [Number α] (e : Expr α) : String := String.ofList e.chars

end Expr

end SeriesFormula
