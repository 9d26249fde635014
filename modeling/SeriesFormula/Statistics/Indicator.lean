import SeriesFormula.Statistics.Aggregate

/-!
# Indicators

A series from the present observations of a series and a number of periods. Each value stands at the label of the
observation that completes its window, so that it depends on nothing later. A series that is too short gives an empty
one. The name of the result is the call that makes it.
-/

namespace SeriesFormula.Statistics

variable {α : Type} [Number α]

/-- The runs of `p` neighbours of a list, one for each that starts a full run. -/
def windows {β : Type} (p : Nat) (xs : List β) : List (List β) :=
  (List.range (xs.length + 1 - p)).map fun start => (xs.drop start).take p

/-- The name of an indicator of a series. -/
def derivedName (function : String) (s : Series α) (p : Nat) : String :=
  s!"{function}({s.name},{p})"

/-- Each present value with the one `p` before it, at the label of the later. -/
def lagged (p : Nat) (s : Series α) : List (String × α × α) :=
  List.zipWith (fun (_, earlier) (date, later) => (date, earlier, later)) s.points (s.points.drop p)

/-- The change over `p` periods in percent of the earlier value, left out where that is zero. -/
def rateOfChange (s : Series α) (p : Nat) : Series α :=
  .ofPairs (derivedName "ROC" s p) ((lagged p s).filterMap fun (date, earlier, later) =>
    if Number.isZero earlier then none else some (date, (later - earlier) / earlier * Number.ofNat 100))

/-- The change over `p` periods. -/
def momentum (s : Series α) (p : Nat) : Series α :=
  .ofPairs (derivedName "MOMENTUM" s p) ((lagged p s).map fun (date, earlier, later) => (date, later - earlier))

/-- The mean of each `p` values in a row. -/
def movingAverage (s : Series α) (p : Nat) : Series α :=
  .ofPairs (derivedName "MA" s p) (List.zipWith (fun (date, _) window => (date, average window p))
    (s.points.drop (p - 1)) (windows p s.numbers))

/-- The changes from each value to the next. -/
def changes (xs : List α) : List α := List.zipWith (fun earlier later => later - earlier) xs xs.tail

def rise (change : α) : α := Number.greater change (Number.ofNat 0)

def fall (change : α) : α := Number.greater (-change) (Number.ofNat 0)

/-- The strength index of `p` changes: how much of their movement is rise, from 0 to 100. -/
def strength (p : Nat) (changes : List α) : α :=
  let gain := average (changes.map rise) p
  let loss := average (changes.map fall) p
  if Number.isZero loss then Number.ofNat 100
  else Number.ofNat 100 - Number.ofNat 100 / (Number.ofNat 1 + gain / loss)

/-- The strength index of each `p` changes in a row. -/
def strengthIndex (s : Series α) (p : Nat) : Series α :=
  .ofPairs (derivedName "RSI" s p) (List.zipWith (fun (date, _) window => (date, strength p window))
    (s.points.drop p) (windows p (changes s.numbers)))

end SeriesFormula.Statistics
