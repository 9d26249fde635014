import Std.Data.TreeMap.Basic
import SeriesFormula.Series.Basic
import SeriesFormula.Text.Case

/-!
# Data of formulas

Formulas look series up by identifiers in small letters. A `Store` is any such look-up; a `Context` is a map that keeps
its identifiers in small letters, so that the case of the letters never matters.
-/

namespace SeriesFormula

/-- A look-up of series by identifiers in small letters. -/
abbrev Store (α : Type) := String → Option (Series α)

/-- The store of a map whose keys are taken as they are. -/
def Store.ofMap {α : Type} (map : Std.TreeMap String (Series α)) : Store α := fun id => map[id]?

/-- Series by identifiers in small letters. -/
structure Context (α : Type) where
  entries : Std.TreeMap String (Series α)

namespace Context

variable {α : Type}

def empty : Context α := ⟨∅⟩

/-- Adds a series under an identifier, or replaces the one there. -/
def insert (context : Context α) (id : String) (s : Series α) : Context α :=
  ⟨context.entries.insert (Text.lower id) s⟩

def insertSeries (context : Context α) (s : Series α) : Context α := context.insert s.name s

/-- The series of an identifier that is given in small letters. -/
def get? (context : Context α) (id : String) : Option (Series α) := context.entries[id]?

def size (context : Context α) : Nat := context.entries.size

def ids (context : Context α) : List String := context.entries.keys

/-- The identifiers with their series, in order. -/
def toList (context : Context α) : List (String × Series α) := context.entries.toList

/-- The context of series by their names; of names that differ in case only, the last one counts. -/
def ofSeries (series : List (Series α)) : Context α := series.foldl insertSeries empty

/-- The context of a list of identifiers with series; later ones replace earlier ones. -/
def ofList (entries : List (String × Series α)) : Context α :=
  entries.foldl (fun context (id, s) => context.insert id s) empty

/-- The context of a map, taken in the order of its keys. -/
def ofMap (map : Std.TreeMap String (Series α)) : Context α := ofList map.toList

def store (context : Context α) : Store α := context.get?

end Context

end SeriesFormula
