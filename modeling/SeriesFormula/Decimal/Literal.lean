import SeriesFormula.Decimal.Nearest
import SeriesFormula.Text.Blank

/-!
# Decimal literals

A literal is a sign, digits with an optional fraction, at least one digit in all, and an optional exponent. Its value
is the float nearest to the decimal. `numeric?` reads a cell or a formula's number: a literal of finite value between
blanks.
-/

namespace SeriesFormula.Decimal

/-- The digits `0` to `9`. -/
def isDigit (c : Char) : Bool := '0' ≤ c && c ≤ '9'

def digitsValue (ds : List Char) : Nat := ds.foldl (fun n d => 10 * n + (d.toNat - '0'.toNat)) 0

/-- The decimal `± coefficient · 10^exponent`. -/
structure Literal where
  negative : Bool
  coefficient : Nat
  exponent : Int
  deriving DecidableEq, Repr

/-- The float nearest to a literal, which may be infinite. -/
def Literal.value (l : Literal) : Float := compose l.negative (nearest l.coefficient l.exponent)

/-- Splits off a sign; `true` stands for a minus. -/
def splitSign : List Char → Bool × List Char
  | '-' :: cs => (true, cs)
  | '+' :: cs => (false, cs)
  | cs => (false, cs)

def splitDigits (cs : List Char) : List Char × List Char := (cs.takeWhile isDigit, cs.dropWhile isDigit)

/-- Splits off a point and the digits behind it; without a point there are no digits. -/
def splitFraction : List Char → List Char × List Char
  | '.' :: cs => splitDigits cs
  | cs => ([], cs)

/-- The value of the exponent that a text consists of; no text stands for the exponent zero. -/
def exponent? : List Char → Option Int
  | [] => some 0
  | c :: cs =>
    if c = 'e' ∨ c = 'E' then
      let (negative, ds) := splitSign cs
      if ds.isEmpty || !ds.all isDigit then none
      else some (if negative then -(digitsValue ds : Int) else digitsValue ds)
    else none

def literal? (cs : List Char) : Option Literal :=
  let (negative, unsigned) := splitSign cs
  let (whole, rest) := splitDigits unsigned
  let (fraction, rest) := splitFraction rest
  if whole.isEmpty && fraction.isEmpty then none
  else (exponent? rest).map fun e => ⟨negative, digitsValue (whole ++ fraction), e - fraction.length⟩

/-- The value of a text that is a literal of finite value between blanks. -/
def numeric? (cs : List Char) : Option Float :=
  ((literal? (Text.trim cs)).map Literal.value).filter isFinite

end SeriesFormula.Decimal
