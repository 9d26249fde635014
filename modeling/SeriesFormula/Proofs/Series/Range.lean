import Mathlib.Order.MinMax
import SeriesFormula.Proofs.Calendar.Layout
import SeriesFormula.Series.Range

/-!
# Ranges and their bounds

- a label is in a range iff it is a date not before the first day and not after the last one, where there are such
  bounds (`DateRange.contains_iff`);
- bounds are accepted iff they are not inverted (`DateRange.between_eq_ok_iff`, `between_eq_error_iff`);
- the common days of two ranges are those of the range between the later first day and the earlier last one
  (`DateRange.contains_intersect`), and there are none if these are inverted (`not_contains_of_intersect`).
-/

namespace SeriesFormula

namespace DateRange

/-! ## Days of a range -/

/-- Days from the first one on, if there is one, up to the last one, if there is one. -/
def Spans (start stop : Option Date) (date : Date) : Prop := (∀ a ∈ start, a ≤ date) ∧ ∀ b ∈ stop, date ≤ b

theorem covers_iff {range : DateRange} {date : Date} :
    range.covers date = true ↔ Spans range.start range.stop date := by
  simp only [covers, Bool.and_eq_true, Option.all_eq_true, decide_eq_true_eq, Spans, Option.mem_def]

/-- **A label is in a range iff it is a date between the bounds.** -/
theorem contains_iff {range : DateRange} {label : String} :
    range.contains label = true ↔ ∃ date, Date.ofLabel? label = some date ∧ Spans range.start range.stop date := by
  simp only [contains, Option.any_eq_true, covers_iff]

theorem contains_iff_of_date {range : DateRange} {label : String} {date : Date}
    (h : Date.ofLabel? label = some date) :
    range.contains label = true ↔ Spans range.start range.stop date := by
  simp [contains_iff, h]

/-! ## Bounds -/

theorem between_eq_ok_iff {start stop : Option Date} {range : DateRange} :
    between start stop = .ok range ↔ range.start = start ∧ range.stop = stop := by
  have hmk : ∀ hordered, (Except.ok ⟨start, stop, hordered⟩ : Except DataError DateRange) = .ok range ↔
      range.start = start ∧ range.stop = stop := fun hordered => by
    rw [Except.ok.injEq, DateRange.mk.injEq, eq_comm, @eq_comm _ stop]
  unfold between
  split
  · split
    next hle => exact hmk _
    next hgt =>
      refine iff_of_false (by simp) ?_
      rintro ⟨hstart, hstop⟩
      exact hgt (range.ordered _ hstart _ hstop)
  · exact hmk _
  · exact hmk _

theorem between_eq_error_iff {start stop : Option Date} {error : DataError} :
    between start stop = .error error ↔
      ∃ a b, start = some a ∧ stop = some b ∧ b < a ∧ error = .invertedRange a b := by
  unfold between
  split
  · rename_i a b
    split
    next hle =>
      refine iff_of_false (by simp) ?_
      rintro ⟨_, _, ⟨⟩, ⟨⟩, hlt, -⟩
      exact absurd hle (not_le_of_gt hlt)
    next hgt =>
      have hlt : b < a := lt_of_not_ge hgt
      constructor
      · rintro ⟨⟩
        exact ⟨a, b, rfl, rfl, hlt, rfl⟩
      · rintro ⟨_, _, ⟨⟩, ⟨⟩, -, rfl⟩
        rfl
  · simp
  · simp

/-! ## Common days -/

/-- The range of the common days of two ranges, refused if there are none. -/
def intersect (r₁ r₂ : DateRange) : Except DataError DateRange :=
  between (Option.merge max r₁.start r₂.start) (Option.merge min r₁.stop r₂.stop)

theorem spans_merge {start₁ stop₁ start₂ stop₂ : Option Date} {date : Date} :
    Spans (Option.merge max start₁ start₂) (Option.merge min stop₁ stop₂) date ↔
      Spans start₁ stop₁ date ∧ Spans start₂ stop₂ date := by
  have hstart : (∀ a ∈ Option.merge max start₁ start₂, a ≤ date) ↔
      (∀ a ∈ start₁, a ≤ date) ∧ ∀ a ∈ start₂, a ≤ date := by
    cases start₁ <;> cases start₂ <;> simp
  have hstop : (∀ b ∈ Option.merge min stop₁ stop₂, date ≤ b) ↔
      (∀ b ∈ stop₁, date ≤ b) ∧ ∀ b ∈ stop₂, date ≤ b := by
    cases stop₁ <;> cases stop₂ <;> simp
  rw [Spans, hstart, hstop]
  exact and_and_and_comm

variable {r₁ r₂ range : DateRange} {label : String}

theorem contains_and_contains_iff : (r₁.contains label = true ∧ r₂.contains label = true) ↔
    ∃ date, Date.ofLabel? label = some date ∧
      Spans (Option.merge max r₁.start r₂.start) (Option.merge min r₁.stop r₂.stop) date := by
  cases hlabel : Date.ofLabel? label with
  | none => simp [contains_iff, hlabel]
  | some date =>
    rw [contains_iff_of_date hlabel, contains_iff_of_date hlabel, ← spans_merge]
    simp only [Option.some.injEq, exists_eq_left']

/-- **The intersection has the common labels of both ranges.** -/
theorem contains_intersect (h : r₁.intersect r₂ = .ok range) :
    range.contains label = (r₁.contains label && r₂.contains label) := by
  obtain ⟨hstart, hstop⟩ := between_eq_ok_iff.1 h
  rw [Bool.eq_iff_iff, Bool.and_eq_true, contains_and_contains_iff, contains_iff, hstart, hstop]

/-- **Ranges whose intersection is inverted have no label in common.** -/
theorem not_contains_of_intersect {error : DataError} (h : r₁.intersect r₂ = .error error) :
    (r₁.contains label && r₂.contains label) = false := by
  obtain ⟨a, b, hstart, hstop, hlt, -⟩ := between_eq_error_iff.1 h
  rw [Bool.eq_false_iff, ne_eq, Bool.and_eq_true, contains_and_contains_iff, hstart, hstop]
  rintro ⟨date, -, hspans⟩
  exact absurd hlt (not_lt_of_ge ((hspans.1 a rfl).trans (hspans.2 b rfl)))

end DateRange

end SeriesFormula
