/-!
# Calendar dates

Days of the Gregorian calendar, continued backwards. A `Date` is a valid day by construction; dates are ordered by
year, month and day, and are written with four digits or more for the year and a sign for years outside 0 to 9999.
-/

namespace SeriesFormula

namespace Calendar

def leastYear : Int := -262143

def greatestYear : Int := 262142

/-- Every fourth year has a leap day, except the centuries that 400 does not divide. -/
def isLeapYear (year : Int) : Bool := year % 4 == 0 && (year % 100 != 0 || year % 400 == 0)

/-- The number of days of a month, zero where there is no such month. -/
def daysInMonth (year : Int) : Nat → Nat
  | 1 | 3 | 5 | 7 | 8 | 10 | 12 => 31
  | 4 | 6 | 9 | 11 => 30
  | 2 => if isLeapYear year then 29 else 28
  | _ => 0

def IsDay (year : Int) (month day : Nat) : Prop :=
  leastYear ≤ year ∧ year ≤ greatestYear ∧ 1 ≤ day ∧ day ≤ daysInMonth year month

instance (year : Int) (month day : Nat) : Decidable (IsDay year month day) :=
  inferInstanceAs (Decidable (_ ∧ _ ∧ _ ∧ _))

end Calendar

/-- A day of the calendar. -/
structure Date where
  year : Int
  month : Nat
  day : Nat
  isDay : Calendar.IsDay year month day
  deriving DecidableEq

namespace Date

def of? (year : Int) (month day : Nat) : Option Date :=
  if h : Calendar.IsDay year month day then some ⟨year, month, day, h⟩ else none

def rank (d : Date) : Int := (d.year * 13 + d.month) * 32 + d.day

instance : LE Date := ⟨fun a b => a.rank ≤ b.rank⟩

instance (a b : Date) : Decidable (a ≤ b) := inferInstanceAs (Decidable (a.rank ≤ b.rank))

instance : LT Date := ⟨fun a b => a.rank < b.rank⟩

instance (a b : Date) : Decidable (a < b) := inferInstanceAs (Decidable (a.rank < b.rank))

/-- The digits of a number with zeros in front up to a width. -/
def padded (width n : Nat) : List Char :=
  let ds := Nat.toDigits 10 n
  List.replicate (width - ds.length) '0' ++ ds

/-- The written year: four digits, and outside 0 to 9999 a sign and at least four. -/
def yearChars (year : Int) : List Char :=
  if year < 0 then '-' :: padded 4 year.natAbs
  else if 9999 < year then '+' :: padded 4 year.natAbs
  else padded 4 year.natAbs

def chars (d : Date) : List Char :=
  yearChars d.year ++ '-' :: padded 2 d.month ++ '-' :: padded 2 d.day

def text (d : Date) : String := String.ofList d.chars

end Date

end SeriesFormula
