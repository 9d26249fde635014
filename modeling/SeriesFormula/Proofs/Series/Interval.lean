import SeriesFormula.Proofs.Series.Range
import SeriesFormula.Proofs.Series.Validation

/-!
# A range takes an interval

- Labels in the layout `YYYY-MM-DD` are ordered like their days (`lt_iff_of_isPadded`), so those that are accepted are
  the chronological ones (`DateIndex.validate_eq_ok_iff_of_isPadded`).
- Chronological observations fall into those before a range, those in it and those behind it (`Series.exists_splits`); a
  range leaves those in the middle, which stand at positions in a row (`DateRange.Splits.within`,
  `DateRange.Splits.positionsWithin`).
-/

namespace SeriesFormula

/-! ## Labels in the layout -/

section Labels

variable {a b : String} {x y : Date} (ha : IsPadded a.toList) (hb : IsPadded b.toList)
  (hx : Date.ofLabel? a = some x) (hy : Date.ofLabel? b = some y)
include ha hb hx hy

/-- **Labels in the layout are ordered like their days.** -/
theorem lt_iff_of_isPadded : a < b ↔ x < y := by
  rw [String.lt_iff]
  exact (spellsDay_of_ofLabel? ha.unsigned hx).lt_iff (spellsDay_of_ofLabel? hb.unsigned hy)

theorem eq_iff_of_isPadded : a = b ↔ x = y := by
  constructor
  · rintro rfl
    exact Option.some.inj (hx.symm.trans hy)
  · rintro rfl
    exact String.toList_inj.1 ((spellsDay_of_ofLabel? ha.unsigned hx).unique (spellsDay_of_ofLabel? hb.unsigned hy))

end Labels

/-- **Labels in the layout are accepted iff they are chronological.** -/
theorem DateIndex.validate_eq_ok_iff_of_isPadded {index : DateIndex}
    (h : ∀ label ∈ index.labels, IsPadded label.toList) : index.validate = .ok () ↔ index.Chronological := by
  obtain ⟨labels⟩ := index
  rw [validate_eq_ok_iff, chronological_iff]
  refine and_congr_right fun hdates => List.Pairwise.iff_of_mem fun {a b} ha hb => ?_
  obtain ⟨x, hx⟩ := hdates a ha
  obtain ⟨y, hy⟩ := hdates b hb
  rw [lt_iff_of_isPadded (h a ha) (h b hb) hx hy, hx, hy]
  simp

/-! ## Before, in and behind a range -/

/-- Where only what is in the middle passes, the positions of what passes are in a row. -/
theorem positions_append {β : Type} {p : β → Bool} {before kept behind : List β} (hbefore : ∀ x ∈ before, p x = false)
    (hkept : ∀ x ∈ kept, p x = true) (hbehind : ∀ x ∈ behind, p x = false) :
    (((before ++ kept ++ behind).zipIdx).filter fun x => p x.1).map (·.2) =
      List.range' before.length kept.length := by
  have hnone : ∀ {xs : List β} (k : ℕ), (∀ x ∈ xs, p x = false) → (xs.zipIdx k).filter (fun x => p x.1) = [] :=
    fun k hxs => List.filter_eq_nil_iff.2 fun x hx => Bool.eq_false_iff.1 (hxs x.1 (List.fst_mem_of_mem_zipIdx hx))
  have hall : ∀ k : ℕ, (kept.zipIdx k).filter (fun x => p x.1) = kept.zipIdx k := fun k =>
    List.filter_eq_self.2 fun x hx => hkept x.1 (List.fst_mem_of_mem_zipIdx hx)
  rw [List.zipIdx_append, List.zipIdx_append, List.filter_append, List.filter_append, hnone _ hbefore,
    hnone _ hbehind, hall, List.nil_append, List.append_nil, List.zipIdx_map_snd, Nat.zero_add]

variable {α : Type}

/-- Observations dated before a range, in it and behind it. -/
structure DateRange.Splits (range : DateRange) (before kept behind : List (Observation α)) : Prop where
  before : ∀ o ∈ before, ∃ date, Date.ofLabel? o.date = some date ∧ ∃ first ∈ range.start, date < first
  kept : ∀ o ∈ kept, ∃ date, Date.ofLabel? o.date = some date ∧ DateRange.Spans range.start range.stop date
  behind : ∀ o ∈ behind, ∃ date, Date.ofLabel? o.date = some date ∧ ∃ last ∈ range.stop, last < date

/-- **Chronological observations fall into those before a range, in it and behind it.** -/
theorem Series.exists_splits (range : DateRange) {os : List (Observation α)}
    (h : DateIndex.Chronological ⟨os.map (·.date)⟩) :
    ∃ before kept behind, os = before ++ kept ++ behind ∧ range.Splits before kept behind := by
  have hbefore : ∀ x y : Date, x < y → range.start.any (y < ·) = true → range.start.any (x < ·) = true := by
    simp only [Option.any_eq_true, decide_eq_true_eq]
    rintro x y hlt ⟨first, hfirst, hy⟩
    exact ⟨first, hfirst, hlt.trans hy⟩
  have hinside : ∀ x y : Date, x < y → range.stop.all (y ≤ ·) = true → range.stop.all (x ≤ ·) = true := by
    simp only [Option.all_eq_true, decide_eq_true_eq]
    intro x y hlt hy last hlast
    exact hlt.le.trans (hy last hlast)
  obtain ⟨before, rest, rfl, hearly, hrest⟩ := exists_early hbefore h
  obtain ⟨kept, behind, rfl, hkept, hlate⟩ := exists_early hinside
    (h.sublist ((List.sublist_append_right before rest).map _))
  refine ⟨before, kept, behind, (List.append_assoc _ _ _).symm, ⟨fun o ho => ?_, fun o ho => ?_, fun o ho => ?_⟩⟩
  · obtain ⟨date, hdate, hday⟩ := hearly o ho
    exact ⟨date, hdate, by simpa [Option.any_eq_true] using hday⟩
  · obtain ⟨date, hdate, hday⟩ := hkept o ho
    obtain ⟨_, hdate', hday'⟩ := hrest o (List.mem_append_left _ ho)
    cases hdate.symm.trans hdate'
    exact ⟨date, hdate, by simpa [Option.any_eq_false] using hday', by simpa [Option.all_eq_true] using hday⟩
  · obtain ⟨date, hdate, hday⟩ := hlate o ho
    exact ⟨date, hdate, by simpa [Option.all_eq_false] using hday⟩

namespace DateRange.Splits

variable {range : DateRange} {before kept behind : List (Observation α)} (h : range.Splits before kept behind)
include h

theorem contains_kept : ∀ o ∈ kept, range.contains o.date = true := fun o ho =>
  DateRange.contains_iff.2 (h.kept o ho)

theorem not_contains_before : ∀ o ∈ before, range.contains o.date = false := by
  intro o ho
  obtain ⟨date, hdate, first, hfirst, hlt⟩ := h.before o ho
  rw [Bool.eq_false_iff, ne_eq, DateRange.contains_iff_of_date hdate]
  exact fun hspans => not_le_of_gt hlt (hspans.1 first hfirst)

theorem not_contains_behind : ∀ o ∈ behind, range.contains o.date = false := by
  intro o ho
  obtain ⟨date, hdate, last, hlast, hlt⟩ := h.behind o ho
  rw [Bool.eq_false_iff, ne_eq, DateRange.contains_iff_of_date hdate]
  exact fun hspans => not_le_of_gt hlt (hspans.2 last hlast)

/-- **A range leaves what is in the middle.** -/
theorem within (name : String) : Series.within ⟨name, before ++ kept ++ behind⟩ range = ⟨name, kept⟩ := by
  have hnone : ∀ os : List (Observation α), (∀ o ∈ os, range.contains o.date = false) →
      os.filter (fun o => range.contains o.date) = [] := fun os hos =>
    List.filter_eq_nil_iff.2 fun o ho => Bool.eq_false_iff.1 (hos o ho)
  rw [Series.within, List.filter_append, List.filter_append, hnone _ h.not_contains_before,
    hnone _ h.not_contains_behind, List.filter_eq_self.2 h.contains_kept, List.nil_append, List.append_nil]

/-- **The positions in a range are in a row.** -/
theorem positionsWithin : range.positionsWithin ⟨(before ++ kept ++ behind).map (·.date)⟩ =
    List.range' before.length kept.length := by
  have hpositions := positions_append (p := range.contains) (List.forall_mem_map.2 h.not_contains_before)
    (List.forall_mem_map.2 h.contains_kept) (List.forall_mem_map.2 h.not_contains_behind)
  rwa [← List.map_append, ← List.map_append, List.length_map, List.length_map] at hpositions

end DateRange.Splits

/-! ## Series in the layout -/

/-- **On labels in the layout the order of texts is that of days.** So a series with such labels is accepted iff they
are days, each before the next, and then a range takes an interval: what is dropped in front is dated before the first
day and what is dropped behind after the last one, and both of these days are kept. -/
theorem Series.interval_of_isPadded :
    (∀ {a b : String} {x y : Date}, IsPadded a.toList → IsPadded b.toList → Date.ofLabel? a = some x →
      Date.ofLabel? b = some y → (a < b ↔ x < y) ∧ (a = b ↔ x = y)) ∧
    ∀ s : Series α, (∀ o ∈ s.observations, IsPadded o.date.toList) →
      (s.validate = .ok () ↔ s.index.Chronological) ∧
      (s.validate = .ok () → ∀ range : DateRange, ∃ before kept behind,
        s.observations = before ++ kept ++ behind ∧ range.Splits before kept behind ∧
          s.within range = ⟨s.name, kept⟩ ∧
          range.positionsWithin s.index = List.range' before.length kept.length) := by
  refine ⟨fun ha hb hx hy => ⟨lt_iff_of_isPadded ha hb hx hy, eq_iff_of_isPadded ha hb hx hy⟩, fun s hlabels => ?_⟩
  have hvalid : s.validate = .ok () ↔ s.index.Chronological :=
    DateIndex.validate_eq_ok_iff_of_isPadded (List.forall_mem_map.2 hlabels)
  refine ⟨hvalid, fun hok range => ?_⟩
  obtain ⟨name, os⟩ := s
  obtain ⟨before, kept, behind, rfl, hsplits⟩ := exists_splits range (hvalid.1 hok)
  exact ⟨before, kept, behind, rfl, hsplits, hsplits.within name, hsplits.positionsWithin⟩

/-- Two of four observations are in a range, on its first day and on its last one. -/
theorem Series.interval_of_isPadded_leap :
    let s : Series Float := ⟨"gdp", [⟨"2019-12-31", some 1⟩, ⟨"2020-01-01", none⟩, ⟨"2020-02-29", some 2⟩,
      ⟨"2020-03-01", some 3⟩]⟩
    let range : DateRange := ⟨some ⟨2020, 1, 1, by decide⟩, some ⟨2020, 2, 29, by decide⟩,
      by rintro _ ⟨⟩ _ ⟨⟩; decide⟩
    (∀ o ∈ s.observations, IsPadded o.date.toList) ∧ s.validate = .ok () ∧ s.index.Chronological ∧
      (s.within range).observations = [⟨"2020-01-01", none⟩, ⟨"2020-02-29", some 2⟩] ∧
      ∃ before kept behind, s.observations = before ++ kept ++ behind ∧ range.Splits before kept behind ∧
        s.within range = ⟨s.name, kept⟩ ∧
        range.positionsWithin s.index = List.range' before.length kept.length := by
  intro s range
  have hlabels : ∀ o ∈ s.observations, IsPadded o.date.toList := by
    simp only [s, List.forall_mem_cons]
    exact ⟨by decide, by decide, by decide, by decide, nofun⟩
  have hvalid : s.validate = .ok () := by decide +kernel
  obtain ⟨hiff, hinterval⟩ := interval_of_isPadded.2 s hlabels
  exact ⟨hlabels, hvalid, hiff.1 hvalid, rfl, hinterval hvalid range⟩

end SeriesFormula
