import SeriesFormula.Series.Range

/-!
# Series

A series is a name and observations in order. Labels and values are two views of the observations and so always as
many. Selections keep the name and the order: `present` drops missing values, `last` keeps the end and `within` the
labels in a range.
-/

namespace SeriesFormula

/-- A named list of observations. -/
structure Series (α : Type) where
  name : String
  observations : List (Observation α)
  deriving DecidableEq

namespace Series

variable {α : Type}

def empty (name : String) : Series α := ⟨name, []⟩

/-- The series with a label and a value for each observation, if they are as many. -/
def ofColumns (name : String) (index : DateIndex) (values : List (Option α)) : Except DataError (Series α) :=
  if index.length = values.length then .ok ⟨name, List.zipWith .mk index.labels values⟩
  else .error (.lengthMismatch index.length values.length)

/-- The series of labelled values, none of them missing. -/
def ofPairs (name : String) (pairs : List (String × α)) : Series α :=
  ⟨name, pairs.map fun (date, value) => ⟨date, some value⟩⟩

def index (s : Series α) : DateIndex := ⟨s.observations.map (·.date)⟩

def values (s : Series α) : List (Option α) := s.observations.map (·.value)

def length (s : Series α) : Nat := s.observations.length

def isEmpty (s : Series α) : Bool := s.observations.isEmpty

def observation? (s : Series α) (position : Nat) : Option (Observation α) := s.observations[position]?

/-- The present values with their labels. -/
def points (s : Series α) : List (String × α) :=
  s.observations.filterMap fun o => o.value.map fun v => (o.date, v)

def numbers (s : Series α) : List α := s.observations.filterMap (·.value)

def countPresent (s : Series α) : Nat := s.observations.countP fun o => o.value.isSome

/-- The same observations under another name. -/
def renamed (s : Series α) (name : String) : Series α := { s with name }

def present (s : Series α) : Series α := { s with observations := s.observations.filter fun o => o.value.isSome }

/-- The last `n` observations. -/
def last (s : Series α) (n : Nat) : Series α := { s with observations := s.observations.drop (s.length - n) }

/-- The observations whose labels are dates in the range. -/
def within (s : Series α) (range : DateRange) : Series α :=
  { s with observations := s.observations.filter fun o => range.contains o.date }

/-- Refuses labels that are no dates or not in order. -/
def validate (s : Series α) : Except DataError Unit := s.index.validate

end Series

end SeriesFormula
