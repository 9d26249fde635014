import SeriesFormula.Proofs.Decimal.Scanner
import SeriesFormula.Proofs.Decimal.Value
import SeriesFormula.Proofs.Source.Table

/-!
# What a cell holds

A text is a number iff it spells a literal between blanks, and the number is the finite float that the literal rounds
to. A cell holds a mark for a missing value or a number, never both, and is refused otherwise (`cell_iff`).
-/

namespace SeriesFormula

open Decimal

/-- A text is a number iff it spells a literal that rounds to the number. -/
theorem numeric?_eq_some_iff_roundsTo {cs : List Char} {x : Float} :
    numeric? cs = some x ↔ ∃ l, Spells (Text.trim cs) l ∧ l.RoundsTo x ∧ isFinite x := by
  simp only [numeric?, Option.filter_eq_some_iff, Option.map_eq_some_iff, literal?_eq_some_iff]
  constructor
  · rintro ⟨⟨l, hl, hx⟩, hfinite⟩
    exact ⟨l, hl, (Literal.value_eq_iff_roundsTo hfinite).1 hx, hfinite⟩
  · rintro ⟨l, hl, hx, hfinite⟩
    exact ⟨⟨l, hl, (Literal.value_eq_iff_roundsTo hfinite).2 hx⟩, hfinite⟩

/-- Blanks at the ends of a number do not matter. -/
theorem numeric?_trimmed (s : String) : numeric? (Text.trimmed s).toList = numeric? s.toList := by
  rw [numeric?, numeric?, Text.trimmed, String.toList_ofList, Text.trim_trim]

/-- A mark for a missing value is no number. -/
theorem numeric?_of_mem_missingMarkers {s : String} (h : Text.trimmed s ∈ missingMarkers) : numeric? s.toList = none := by
  have hmarker := literal?_of_mem_missingMarkers _ h
  rw [Text.trimmed, String.toList_ofList] at hmarker
  rw [numeric?, hmarker]
  rfl

/-- What a cell holds. -/
theorem observationValue_eq (s : String) : observationValue s =
    if Text.trimmed s ∈ missingMarkers then .ok none
    else (numeric? s.toList).elim (.error (.nonNumeric (Text.trimmed s))) fun x => .ok (some x) := by
  simp only [observationValue, numeric?_trimmed, List.contains_iff_mem]
  cases numeric? s.toList <;> rfl

/-- **Numbers and cells follow the grammar of literals.** -/
theorem cell_iff (s : String) :
    (scans (Text.bytes (Text.trimmed s)) ↔
      ∃ l, Spells (Text.trim s.toList) l ∧ standard? (Text.trim s.toList) = some l.value) ∧
    scanned? s = numeric? s.toList ∧
    (∀ x, numeric? s.toList = some x ↔ ∃ l, Spells (Text.trim s.toList) l ∧ l.RoundsTo x ∧ isFinite x) ∧
    (observationValue s = .ok none ↔ Text.trimmed s ∈ missingMarkers) ∧
    (∀ x, observationValue s = .ok (some x) ↔ numeric? s.toList = some x) ∧
    (∀ error, observationValue s = .error error ↔ error = .nonNumeric (Text.trimmed s) ∧
      Text.trimmed s ∉ missingMarkers ∧ numeric? s.toList = none) ∧
    ¬(Text.trimmed s ∈ missingMarkers ∧ (numeric? s.toList).isSome) := by
  have hmarker : Text.trimmed s ∈ missingMarkers → numeric? s.toList = none := numeric?_of_mem_missingMarkers
  refine ⟨?_, scanned?_eq s, fun x => numeric?_eq_some_iff_roundsTo, ?_⟩
  · rw [scans_trimmed, Option.isSome_iff_exists]
    constructor
    · rintro ⟨l, hl⟩
      have hspells := literal?_eq_some_iff.1 hl
      exact ⟨l, hspells, standard?_of_spells hspells⟩
    · rintro ⟨l, hl, -⟩
      exact ⟨l, literal?_eq_some_iff.2 hl⟩
  · rw [observationValue_eq]
    by_cases hm : Text.trimmed s ∈ missingMarkers
    · simp [hm, hmarker hm]
    · cases numeric? s.toList with
      | none => simp [hm, eq_comm]
      | some x => simp [hm]

end SeriesFormula
