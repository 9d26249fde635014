/-!
# Letter case

Names of series are compared without regard to the case of the letters `A` to `Z`; all other characters count as
they are.
-/

namespace SeriesFormula.Text

/-- The text with `A` to `Z` written small. -/
def lower (s : String) : String := s.map Char.toLower

/-- Two texts that differ at most in the case of `A` to `Z`. -/
def sameLetters (s t : String) : Bool := lower s == lower t

end SeriesFormula.Text
