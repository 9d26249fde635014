import SeriesFormula.Proofs.Series.Alignment
import SeriesFormula.Proofs.Series.Range
import SeriesFormula.Proofs.Series.Validation

/-!
# The laws of selections

A series is cut to a range (`within`), to its last observations (`last`) or to those that are present (`present`).

- `SelectionLaws` are the equations between selections one after the other. They hold on observations
  (`Series.selectionLaws`), and so on columns, where each selection numbers the positions of its own result
  (`SelectionLaws.map`).
- Each selection has all observations that qualify and no others, in their order (`Series.Selects`), as those at the
  positions of a list in ascending order.
-/

namespace SeriesFormula

/-! ## Selections one after the other -/

/-- The equations between selections. `cleared` is what is left when nothing is selected. -/
structure SelectionLaws {σ : Type} (present : σ → σ) (last : σ → ℕ → σ) (within : σ → DateRange → σ)
    (cleared : σ → σ) (s : σ) : Prop where
  within_comm : ∀ r₁ r₂, within (within s r₁) r₂ = within (within s r₂) r₁
  within_intersect : ∀ r₁ r₂ r, r₁.intersect r₂ = .ok r → within (within s r₁) r₂ = within s r
  within_inverted : ∀ r₁ r₂ error, r₁.intersect r₂ = .error error → within (within s r₁) r₂ = cleared s
  last_last : ∀ m n, last (last s n) m = last s (min m n)
  present_present : present (present s) = present s
  present_within : ∀ r, present (within s r) = within (present s) r

/-- The equations carry over to another form of what is selected from. -/
theorem SelectionLaws.map {σ τ : Type} {present : σ → σ} {last : σ → ℕ → σ} {within : σ → DateRange → σ}
    {cleared : σ → σ} {present' : τ → τ} {last' : τ → ℕ → τ} {within' : τ → DateRange → τ} {cleared' : τ → τ}
    (f : σ → τ) (hpresent : ∀ s, present' (f s) = f (present s)) (hlast : ∀ s n, last' (f s) n = f (last s n))
    (hwithin : ∀ s r, within' (f s) r = f (within s r)) (hcleared : ∀ s, cleared' (f s) = f (cleared s)) {s : σ}
    (h : SelectionLaws present last within cleared s) : SelectionLaws present' last' within' cleared' (f s) where
  within_comm r₁ r₂ := by rw [hwithin, hwithin, hwithin, hwithin, h.within_comm]
  within_intersect r₁ r₂ r hr := by rw [hwithin, hwithin, hwithin, h.within_intersect r₁ r₂ r hr]
  within_inverted r₁ r₂ error hr := by rw [hwithin, hwithin, hcleared, h.within_inverted r₁ r₂ error hr]
  last_last m n := by rw [hlast, hlast, hlast, h.last_last]
  present_present := by rw [hpresent, hpresent, h.present_present]
  present_within r := by rw [hwithin, hpresent, hpresent, hwithin, h.present_within]

namespace Series

variable {α : Type} (s : Series α)

/-- A range behind a range leaves the common labels of both. -/
theorem within_within (r₁ r₂ : DateRange) : (s.within r₁).within r₂ =
    { s with observations := s.observations.filter fun o => r₁.contains o.date && r₂.contains o.date } := by
  rw [within, within, List.filter_filter]
  simp only [Bool.and_comm]

/-- The end of an end is the shorter of both. -/
theorem last_last (m n : ℕ) : (s.last n).last m = s.last (min m n) := by
  simp only [last, length, List.drop_drop, List.length_drop]
  congr 2
  omega

/-- **The laws of selections on observations.** -/
theorem selectionLaws : SelectionLaws present last within (fun s : Series α => .empty s.name) s where
  within_comm r₁ r₂ := by
    rw [within_within, within_within]
    simp only [Bool.and_comm]
  within_intersect r₁ r₂ r hr := by
    rw [within_within, within]
    simp only [DateRange.contains_intersect hr]
  within_inverted r₁ r₂ error hr := by
    rw [within_within]
    simp only [DateRange.not_contains_of_intersect hr, List.filter_false]
    rfl
  last_last := s.last_last
  present_present := by
    rw [present, present, List.filter_filter]
    simp only [Bool.and_self]
  present_within r := by
    rw [present, within, within, present, List.filter_filter, List.filter_filter]
    simp only [Bool.and_comm]

/-! ## What is selected -/

/-- The series of the observations that qualify, by their positions or by what they are, in their order. Its columns are
those of the whole series at the positions of these observations. -/
structure Selects (s : Series α) (qualifies : ℕ → Observation α → Prop) (t : Series α) : Prop where
  name_eq : t.name = s.name
  sublist : t.observations.Sublist s.observations
  exists_positions : ∃ positions : List ℕ, positions.Pairwise (· < ·) ∧
    (∀ i, i ∈ positions ↔ ∃ o, s.observations[i]? = some o ∧ qualifies i o) ∧
    SplitSeries.ofSeries t = (SplitSeries.ofSeries s).take positions
  validate_eq : s.validate = .ok () → t.validate = .ok ()

/-- What stands at ascending positions is a selection. -/
theorem selects_of_positions (positions : List ℕ) {qualifies : ℕ → Observation α → Prop} {os : List (Observation α)}
    (hpositions : positions.Pairwise (· < ·))
    (hqualifies : ∀ i, i ∈ positions ↔ ∃ o, s.observations[i]? = some o ∧ qualifies i o)
    (hos : positions.filterMap (s.observations[·]?) = os) (hsublist : os.Sublist s.observations) :
    s.Selects qualifies ⟨s.name, os⟩ where
  name_eq := rfl
  sublist := hsublist
  exists_positions := ⟨positions, hpositions, hqualifies, by rw [SplitSeries.ofSeries_take, hos]⟩
  validate_eq := DateIndex.validate_of_sublist (hsublist.map _)

/-- A filter selects what passes. -/
theorem selects_filter (p : Observation α → Bool) :
    s.Selects (fun _ o => p o = true) { s with observations := s.observations.filter p } := by
  refine s.selects_of_positions ((s.observations.zipIdx.filter fun x => p x.1).map (·.2)) ?_ (fun i => ?_) ?_
    List.filter_sublist
  · have hall : (s.observations.zipIdx.map (·.2)).Pairwise (· < ·) := by
      rw [List.zipIdx_map_snd]
      exact List.pairwise_lt_range'
    exact hall.sublist (List.filter_sublist.map _)
  · simp [List.mem_zipIdx_iff_getElem?]
  · have hfilter := SplitSeries.filterMap_getElem?_positions id p s.observations
    rwa [List.map_id] at hfilter

theorem selects_present : s.Selects (fun _ o => o.value.isSome) s.present := s.selects_filter _

/-- The end has the observations from which on there are no more than `n`. -/
theorem selects_last (n : ℕ) : s.Selects (fun i _ => s.length ≤ i + n) (s.last n) := by
  refine s.selects_of_positions (List.range' (s.length - n) (s.length - (s.length - n)))
    List.pairwise_lt_range' (fun i => ?_) (SplitSeries.filterMap_getElem?_range' s.observations (s.length - n))
    (List.drop_sublist _ _)
  rw [List.mem_range'_1]
  constructor
  · rintro ⟨hl, hu⟩
    have hi : i < s.length := by omega
    exact ⟨_, List.getElem?_eq_getElem hi, by omega⟩
  · rintro ⟨o, ho, hend⟩
    have hi : i < s.length := (List.getElem?_eq_some_iff.1 ho).1
    omega

theorem selects_within (range : DateRange) : s.Selects
    (fun _ o => ∃ date, Date.ofLabel? o.date = some date ∧ DateRange.Spans range.start range.stop date)
    (s.within range) := by
  have h := s.selects_filter fun o => range.contains o.date
  simp only [DateRange.contains_iff] at h
  exact h

end Series

/-! ## Selections from columns -/

namespace SplitSeries

variable {α : Type}

/-- No labels and no values under the same name. -/
def cleared (s : SplitSeries α) : SplitSeries α := ⟨s.name, ⟨[]⟩, []⟩

/-- **The laws of selections on the columns of a series.** -/
theorem selectionLaws (t : Series α) : SelectionLaws present last within cleared (ofSeries t) :=
  t.selectionLaws.map ofSeries ofSeries_present ofSeries_last ofSeries_within fun _ => rfl

end SplitSeries

/-- **Selections keep to their laws**, on observations and on columns, for any labels. Ranges one after the other leave
what their intersection leaves, in any order; the end of an end is the shorter one; missing values dropped twice are
dropped as once, and before a range as behind it. Each selection has exactly the observations that qualify, in their
order and under the same name, and leaves accepted labels accepted. -/
theorem Series.selections {α : Type} (s : Series α) :
    SelectionLaws Series.present Series.last Series.within (fun s => .empty s.name) s ∧
    SelectionLaws SplitSeries.present SplitSeries.last SplitSeries.within SplitSeries.cleared (.ofSeries s) ∧
    ((SplitSeries.ofSeries s).present = .ofSeries s.present ∧
      (∀ n, (SplitSeries.ofSeries s).last n = .ofSeries (s.last n)) ∧
      ∀ range, (SplitSeries.ofSeries s).within range = .ofSeries (s.within range)) ∧
    (SplitSeries.ofSeries s).present = (SplitSeries.ofSeries s).take (SplitSeries.ofSeries s).presentPositions ∧
    s.Selects (fun _ o => o.value.isSome) s.present ∧
    (∀ n, s.Selects (fun i _ => s.length ≤ i + n) (s.last n)) ∧
    ∀ range : DateRange, s.Selects
      (fun _ o => ∃ date, Date.ofLabel? o.date = some date ∧ DateRange.Spans range.start range.stop date)
      (s.within range) :=
  ⟨s.selectionLaws, SplitSeries.selectionLaws s,
    ⟨SplitSeries.ofSeries_present s, SplitSeries.ofSeries_last s, SplitSeries.ofSeries_within s⟩,
    (SplitSeries.ofSeries_present s).trans (SplitSeries.ofSeries_take_presentPositions s).symm,
    s.selects_present, s.selects_last, s.selects_within⟩

/-- Two ranges that overlap and two that do not, on a series with a missing value and a label that is no date. -/
theorem Series.selections_overlapping :
    let s : Series Float := ⟨"gdp", [⟨"2020-01-01", some 1⟩, ⟨"2020Q1", some 2⟩, ⟨"2020-02-01", none⟩,
      ⟨"2020-03-01", some 3⟩]⟩
    let early : DateRange := ⟨none, some ⟨2020, 2, 1, by decide⟩, by rintro _ ⟨⟩⟩
    let middle : DateRange := ⟨some ⟨2020, 1, 15, by decide⟩, none, by rintro _ _ _ ⟨⟩⟩
    let late : DateRange := ⟨some ⟨2020, 3, 1, by decide⟩, none, by rintro _ _ _ ⟨⟩⟩
    let common : DateRange := ⟨middle.start, early.stop, by rintro _ ⟨⟩ _ ⟨⟩; decide⟩
    early.intersect middle = .ok common ∧ (s.within early).within middle = s.within common ∧
      (s.within common).observations = [⟨"2020-02-01", none⟩] ∧
      early.intersect late = .error (.invertedRange ⟨2020, 3, 1, by decide⟩ ⟨2020, 2, 1, by decide⟩) ∧
      (s.within early).within late = .empty "gdp" := by
  intro s early middle late common
  have hcommon : early.intersect middle = .ok common := rfl
  have hnone : early.intersect late = .error (.invertedRange ⟨2020, 3, 1, by decide⟩ ⟨2020, 2, 1, by decide⟩) := rfl
  obtain ⟨hlaws, -⟩ := s.selections
  exact ⟨hcommon, hlaws.within_intersect _ _ _ hcommon, rfl, hnone, hlaws.within_inverted _ _ _ hnone⟩

end SeriesFormula
