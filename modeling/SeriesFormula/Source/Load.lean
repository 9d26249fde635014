import SeriesFormula.Source.Document
import SeriesFormula.Source.Table

/-!
# Loading data

`Sources` names the files that a context is put together from. Documents are read first and tables afterwards, so that
a table replaces the series that a document has under its identifier; every series is cut to the range.
-/

namespace SeriesFormula

abbrev Files := String → Except FileError String

/-- The files of a context and the range of its dates. -/
structure Sources where
  /-- Identifiers with the paths of their tables. -/
  tables : List (String × String) := []
  /-- Paths of documents. -/
  documents : List String := []
  range : DateRange := .unbounded

namespace Sources

/-- The paths in the order in which they are read. -/
def paths (sources : Sources) : List String := sources.documents ++ sources.tables.map (·.2)

/-- Adds the series of a document to a context. -/
def addDocument (sources : Sources) (files : Files) (context : Context Float) (path : String) :
    Except SourceError (Context Float) := do
  let text ← (files path).mapError .file
  let found ← Context.ofDocument text
  return found.toList.foldl (fun context (id, s) => context.insert id (s.within sources.range)) context

/-- Adds the series of a table to a context. -/
def addTable (sources : Sources) (files : Files) (context : Context Float) (entry : String × String) :
    Except SourceError (Context Float) := do
  let (id, path) := entry
  let text ← (files path).mapError .file
  let s ← Series.ofTable (Text.lower id) text
  return context.insert id (s.within sources.range)

def load (sources : Sources) (files : Files) : Except SourceError (Context Float) := do
  let context ← sources.documents.foldlM (sources.addDocument files) .empty
  sources.tables.foldlM (sources.addTable files) context

end Sources

end SeriesFormula
