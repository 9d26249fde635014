import SeriesFormula.Formula.Ledger
import SeriesFormula.Formula.Expr
import SeriesFormula.Json.Reader

/-!
# Values from documents

The reader of each type that has a JSON form. Ranges and series are built by their constructors, so that an inverted
range and columns of two lengths are refused here too.
-/

namespace SeriesFormula

open Json

def ValueKind.reader : Reader ValueKind :=
  .variant [("scalar", .plain .scalar), ("series", .plain .series)]

def Observation.reader : Reader (Observation Float) :=
  (Reader.pair .text (.optional .number)).check fun (date, value) => return ⟨date, value⟩

def DateIndex.reader : Reader DateIndex :=
  (Reader.single "labels" (.list .text)).check fun labels => return ⟨labels⟩

def Date.reader : Reader Date :=
  Reader.text.check fun text => Reader.required (Date.ofText? text)

/-- A range that is being read. -/
structure DateRange.Draft where
  start : Option (Option Date) := none
  stop : Option (Option Date) := none

def DateRange.draftReader : Reader DateRange.Draft :=
  Reader.record [
    .slot "start" Draft.start (fun draft v => { draft with start := some v }) (.optional Date.reader) false,
    .slot "end" Draft.stop (fun draft v => { draft with stop := some v }) (.optional Date.reader) false] {}

def DateRange.reader : Reader DateRange :=
  DateRange.draftReader.check fun draft => (DateRange.between draft.start.join draft.stop.join).mapError .data

/-- A series that is being read. -/
structure Series.Draft where
  name : Option String := none
  index : Option DateIndex := none
  values : Option (List (Option Float)) := none

def Series.draftReader : Reader Series.Draft :=
  Reader.record [
    .slot "name" Draft.name (fun draft v => { draft with name := some v }) .text false,
    .slot "index" Draft.index (fun draft v => { draft with index := some v }) DateIndex.reader false,
    .slot "values" Draft.values (fun draft v => { draft with values := some v }) (.list (.optional .number)) false]
    {}

def Series.reader : Reader (Series Float) :=
  Series.draftReader.check fun draft => do
    let name ← Reader.required draft.name
    let index ← Reader.required draft.index
    let values ← Reader.required draft.values
    (Series.ofColumns name index values).mapError .data

/-- A policy that is being read. -/
structure Policy.Draft where
  maxDepth : Option Nat := none
  maxLength : Option Nat := none

def Policy.reader : Reader Policy :=
  (Reader.record [
    .slot "max_depth" Draft.maxDepth (fun draft v => { draft with maxDepth := some v }) .natural false,
    .slot "max_formula_len" Draft.maxLength (fun draft v => { draft with maxLength := some v }) .natural false]
    {}).check
  fun draft => return ⟨← Reader.required draft.maxDepth, ← Reader.required draft.maxLength⟩

/-- The tags of outcomes. -/
inductive CallOutcome.Tag where
  | scalar
  | series
  | failed

def CallOutcome.reader : Reader (CallOutcome Float) := fun mode document => do
  let (tag, rest) ←
    Reader.tagged "kind" [("scalar", Tag.scalar), ("series", .series), ("failed", .failed)] mode document
  let mode := { mode with kept := true }
  match tag with
  | .scalar => .scalar <$> Reader.single "value" .number mode rest
  | .series => .series <$> Reader.single "len" .natural mode rest
  | .failed => .failed <$> Reader.single "message" .text mode rest

/-- A record that is being read. -/
structure CallRecord.Draft where
  depth : Option Nat := none
  function : Option String := none
  argumentKinds : Option (List ValueKind) := none
  outcome : Option (CallOutcome Float) := none

def CallRecord.reader : Reader (CallRecord Float) :=
  (Reader.record [
    .slot "depth" Draft.depth (fun draft v => { draft with depth := some v }) .natural false,
    .slot "function" Draft.function (fun draft v => { draft with function := some v }) .text false,
    .slot "argument_kinds" Draft.argumentKinds (fun draft v => { draft with argumentKinds := some v })
      (.list ValueKind.reader) false,
    .slot "outcome" Draft.outcome (fun draft v => { draft with outcome := some v }) CallOutcome.reader false] {}).check
  fun draft => return ⟨← Reader.required draft.depth, ← Reader.required draft.function,
    ← Reader.required draft.argumentKinds, ← Reader.required draft.outcome⟩

def Ledger.reader : Reader (Ledger Float) :=
  (Reader.single "records" (.list CallRecord.reader)).check fun records => return ⟨records⟩

namespace Expr

/-- The tags of expressions. -/
inductive Tag where
  | call
  | identifier
  | literal

/-- A call that is being read. -/
structure Draft where
  name : Option String := none
  args : Option (List (Expr Float)) := none

/-- The reader of expressions with fewer than `fuel` brackets around each other. -/
def readerWithin : Nat → Reader (Expr Float)
  | 0 => fun _ document => .error document.mismatch
  | fuel + 1 => fun mode document => do
    let (tag, rest) ←
      Reader.tagged "kind" [("call", Tag.call), ("identifier", .identifier), ("literal", .literal)] mode document
    let mode := { mode with kept := true }
    match tag with
    | .call => do
      let draft ← Reader.record [
        .slot "name" Draft.name (fun draft v => { draft with name := some v }) .text false,
        .slot "args" Draft.args (fun draft v => { draft with args := some v }) (.list (readerWithin fuel)) false] {}
        mode rest
      return .call (← Reader.required draft.name) (← Reader.required draft.args)
    | .identifier => .identifier <$> Reader.single "name" .text mode rest
    | .literal => .literal <$> Reader.single "value" .number mode rest

def reader : Reader (Expr Float) := readerWithin (maxLevels + 1)

end Expr

end SeriesFormula
