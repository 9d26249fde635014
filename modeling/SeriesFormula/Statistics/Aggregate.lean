import SeriesFormula.Number
import SeriesFormula.Series.Basic

/-!
# Aggregates

One number from the present values of a series. A series without present values has the mean, least and greatest
value zero.
-/

namespace SeriesFormula.Statistics

variable {α : Type} [Number α]

/-- The sum of a list, added from left to right. -/
def total (xs : List α) : α := xs.foldl (· + ·) Number.sumStart

def average (xs : List α) (count : Nat) : α := total xs / Number.ofNat count

/-- The values of a list combined from left to right, zero where there is none. -/
def reduce (f : α → α → α) : List α → α
  | [] => Number.ofNat 0
  | x :: xs => xs.foldl f x

def sum (s : Series α) : α := total s.numbers

def mean (s : Series α) : α :=
  if s.countPresent = 0 then Number.ofNat 0 else average s.numbers s.countPresent

def least (s : Series α) : α := reduce Number.lesser s.numbers

def greatest (s : Series α) : α := reduce Number.greater s.numbers

def count (s : Series α) : α := Number.ofNat s.countPresent

end SeriesFormula.Statistics
