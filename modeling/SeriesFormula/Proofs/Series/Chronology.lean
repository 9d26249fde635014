import Mathlib.Data.List.Basic
import SeriesFormula.Series.Basic

/-!
# Labels in the order of the calendar

`DateIndex.Chronological` says that all labels are dates and that each date is before the next. The labels that are left
when some are taken out are in order too (`Chronological.sublist`), and early days, such as those up to a day, stand in
front of all others (`Series.exists_early`, `Series.exists_cut`).
-/

namespace SeriesFormula

/-! ## Chronological labels -/

namespace DateIndex

/-- The labels are dates, each before the next. -/
def Chronological (index : DateIndex) : Prop :=
  ∃ dates : List Date, index.labels.map Date.ofLabel? = dates.map some ∧ dates.Pairwise (· < ·)

/-- Labels are chronological iff each is a date, and is before all that follow. -/
theorem chronological_iff {labels : List String} : Chronological ⟨labels⟩ ↔
    (∀ label ∈ labels, ∃ date, Date.ofLabel? label = some date) ∧
      labels.Pairwise fun a b => ∀ x ∈ Date.ofLabel? a, ∀ y ∈ Date.ofLabel? b, x < y := by
  have hpairs := @List.pairwise_map _ _ Date.ofLabel? (fun o o' => ∀ x ∈ o, ∀ y ∈ o', x < y) labels
  rw [← hpairs]
  constructor
  · rintro ⟨dates, hdates, hlt⟩
    have hdates : labels.map Date.ofLabel? = dates.map some := hdates
    refine ⟨fun label hmem => ?_, ?_⟩
    · have : Date.ofLabel? label ∈ dates.map some := hdates ▸ List.mem_map_of_mem hmem
      obtain ⟨date, -, hdate⟩ := List.mem_map.1 this
      exact ⟨date, hdate.symm⟩
    · rw [hdates, List.pairwise_map]
      exact hlt.imp fun h _ hx _ hy => Option.some.inj hx ▸ Option.some.inj hy ▸ h
  · rintro ⟨hsome, hlt⟩
    have hdates : labels.map Date.ofLabel? = (labels.filterMap Date.ofLabel?).map some := by
      rw [List.map_filterMap_some_eq_filter_map_isSome, List.filter_eq_self.2]
      rw [List.forall_mem_map]
      intro label hmem
      obtain ⟨date, hdate⟩ := hsome label hmem
      rw [hdate, Option.isSome_some]
    rw [hdates, List.pairwise_map] at hlt
    exact ⟨_, hdates, hlt.imp fun h => h _ rfl _ rfl⟩

/-- Labels taken out of chronological ones are chronological. -/
theorem Chronological.sublist {labels kept : List String} (h : Chronological ⟨labels⟩) (hs : kept.Sublist labels) :
    Chronological ⟨kept⟩ := by
  rw [chronological_iff] at h ⊢
  exact ⟨fun label hmem => h.1 label (hs.subset hmem), h.2.sublist hs⟩

/-- A label in front of others. -/
theorem Chronological.head {label : String} {labels : List String} (h : Chronological ⟨label :: labels⟩) :
    ∃ date, Date.ofLabel? label = some date ∧
      ∀ other ∈ labels, ∃ date', Date.ofLabel? other = some date' ∧ date < date' := by
  obtain ⟨hsome, hlt⟩ := chronological_iff.1 h
  obtain ⟨date, hdate⟩ := hsome label List.mem_cons_self
  refine ⟨date, hdate, fun other hmem => ?_⟩
  obtain ⟨date', hdate'⟩ := hsome other (List.mem_cons_of_mem _ hmem)
  exact ⟨date', hdate', List.rel_of_pairwise_cons hlt hmem date hdate date' hdate'⟩

end DateIndex

/-! ## The days up to one -/

namespace DateRange

/-- The days up to `stop`, which is included. -/
def upTo (stop : Date) : DateRange := ⟨none, some stop, by simp [Ordered]⟩

variable {stop : Date} {label : String} {date : Date}

/-- A label is in the range iff its date is not after the last day. -/
theorem contains_upTo (h : Date.ofLabel? label = some date) : (upTo stop).contains label = decide (date ≤ stop) := by
  simp [contains, h, covers, upTo]

end DateRange

namespace Series

variable {α : Type}

/-- A range that takes the labels of the first part and none of the second leaves the first part. -/
theorem within_append {range : DateRange} {name : String} {kept cut : List (Observation α)}
    (hkept : ∀ label ∈ kept.map (·.date), range.contains label = true)
    (hcut : ∀ label ∈ cut.map (·.date), range.contains label = false) :
    Series.within ⟨name, kept ++ cut⟩ range = ⟨name, kept⟩ := by
  rw [List.forall_mem_map] at hkept hcut
  rw [within, List.filter_append, List.filter_eq_self.2 hkept, List.filter_eq_nil_iff.2, List.append_nil]
  intro o ho
  rw [hcut o ho]
  exact Bool.false_ne_true

/-- Chronological observations fall into early ones and others, if what is before an early day is early. -/
theorem exists_early {early : Date → Bool} (hearly : ∀ x y, x < y → early y = true → early x = true)
    {os : List (Observation α)} (h : DateIndex.Chronological ⟨os.map (·.date)⟩) :
    ∃ front rest, os = front ++ rest ∧
      (∀ o ∈ front, ∃ date, Date.ofLabel? o.date = some date ∧ early date = true) ∧
      ∀ o ∈ rest, ∃ date, Date.ofLabel? o.date = some date ∧ early date = false := by
  induction os with
  | nil => exact ⟨[], [], rfl, nofun, nofun⟩
  | cons o os ih =>
    obtain ⟨date, hdate, hlater⟩ := h.head
    cases hday : early date with
    | true =>
      obtain ⟨front, rest, rfl, hfront, hrest⟩ := ih (h.sublist (List.sublist_cons_self _ _))
      exact ⟨o :: front, rest, rfl, List.forall_mem_cons.2 ⟨⟨date, hdate, hday⟩, hfront⟩, hrest⟩
    | false =>
      -- the first day is not early, and so is none behind it
      refine ⟨[], o :: os, rfl, nofun, List.forall_mem_cons.2 ⟨⟨date, hdate, hday⟩, fun o' ho' => ?_⟩⟩
      obtain ⟨date', hdate', hlt⟩ := hlater o'.date (List.mem_map_of_mem ho')
      refine ⟨date', hdate', Bool.eq_false_iff.2 fun hday' => ?_⟩
      rw [hearly date date' hlt hday'] at hday
      cases hday

/-- Chronological observations fall into those up to a day and those behind it. -/
theorem exists_cut (stop : Date) {os : List (Observation α)} (h : DateIndex.Chronological ⟨os.map (·.date)⟩) :
    ∃ kept cut, os = kept ++ cut ∧ (∀ label ∈ kept.map (·.date), (DateRange.upTo stop).contains label = true) ∧
      ∀ label ∈ cut.map (·.date), (DateRange.upTo stop).contains label = false := by
  have hearly : ∀ x y : Date, x < y → decide (y ≤ stop) = true → decide (x ≤ stop) = true := by
    intro x y hlt hle
    rw [decide_eq_true_iff] at hle ⊢
    exact Int.le_trans (Int.le_of_lt hlt) hle
  obtain ⟨kept, cut, rfl, hkept, hcut⟩ := exists_early hearly h
  refine ⟨kept, cut, rfl, List.forall_mem_map.2 fun o ho => ?_, List.forall_mem_map.2 fun o ho => ?_⟩
  · obtain ⟨date, hdate, hle⟩ := hkept o ho
    rw [DateRange.contains_upTo hdate, hle]
  · obtain ⟨date, hdate, hgt⟩ := hcut o ho
    rw [DateRange.contains_upTo hdate, hgt]

end Series

end SeriesFormula
