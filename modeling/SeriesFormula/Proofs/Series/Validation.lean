import Mathlib.Data.List.Chain
import SeriesFormula.Proofs.Result
import SeriesFormula.Proofs.Calendar.Spelling
import SeriesFormula.Proofs.Series.Chronology

/-!
# Labels that are accepted

- labels are accepted iff each is a date and is, as a text, below all that follow (`DateIndex.validate_eq_ok_iff`), and
  stay so when some are taken out, as by a range (`DateIndex.validate_of_sublist`, `Series.validate_within`);
- where no label has blanks or a sign, these are exactly the chronological labels
  (`DateIndex.validate_eq_ok_iff_chronological`), because such labels are ordered like their days;
- blanks before a number break this: an index whose second day is before its first is accepted
  (`DateIndex.validate_of_inner_blanks`).
-/

namespace SeriesFormula

namespace DateIndex

/-- Neighbours are related iff the labels are a chain. -/
theorem forall_neighbours_iff {R : String → String → Prop} (labels : List String) :
    (∀ pair ∈ neighbours ⟨labels⟩, R pair.1 pair.2) ↔ labels.IsChain R := by
  induction labels with
  | nil => simp [neighbours]
  | cons a labels ih =>
    cases labels with
    | nil => simp [neighbours]
    | cons b labels =>
      rw [List.isChain_cons_cons, ← ih]
      exact List.forall_mem_cons

/-- There is no descent iff each label is below the next. -/
theorem firstDescent?_eq_none_iff (index : DateIndex) :
    index.firstDescent? = none ↔ index.labels.IsChain (· < ·) := by
  have hnone : index.firstDescent? = none ↔ ∀ entry ∈ index.neighbours.zipIdx 1, entry.1.1 < entry.1.2 := by
    rw [firstDescent?, List.findSome?_eq_none_iff]
    refine forall₂_congr fun entry _ => ?_
    dsimp only
    split <;> simp [*]
  -- positions are counted for the message only
  have hfst : (∀ pair ∈ index.neighbours, pair.1 < pair.2) ↔
      ∀ entry ∈ index.neighbours.zipIdx 1, entry.1.1 < entry.1.2 := by
    conv_lhs => rw [← List.zipIdx_map_fst 1 index.neighbours, List.forall_mem_map]
  rw [hnone, ← hfst, ← forall_neighbours_iff]

/-- All labels are read first, then the first descent is looked for. -/
theorem validate_eq (index : DateIndex) : index.validate =
    (index.labels.forM fun label => discard (observationDate label)) >>= fun _ =>
      index.firstDescent?.elim (.ok ()) .error := by
  rw [validate]
  cases index.firstDescent? <;> rfl

/-- A label passes iff it is a date. -/
theorem check_eq_ok_iff {label : String} :
    discard (observationDate label) = .ok () ↔ ∃ date, Date.ofLabel? label = some date := by
  unfold observationDate
  cases Date.ofLabel? label <;> simp [discard, Functor.discard, Functor.mapConst, Except.map]

/-- **Labels are accepted** iff each is a date and is, as a text, below all that follow. -/
theorem validate_eq_ok_iff {index : DateIndex} : index.validate = .ok () ↔
    (∀ label ∈ index.labels, ∃ date, Date.ofLabel? label = some date) ∧ index.labels.Pairwise (· < ·) := by
  have hdescent : index.firstDescent?.elim (Except.ok ()) Except.error = .ok () ↔ index.firstDescent? = none := by
    cases index.firstDescent? <;> simp
  rw [← List.isChain_iff_pairwise, ← firstDescent?_eq_none_iff, ← hdescent,
    ← forall₂_congr fun label _ => check_eq_ok_iff, ← forM_eq_ok_iff, validate_eq, bind_eq_ok_iff]
  exact ⟨fun ⟨_, h⟩ => h, fun h => ⟨(), h⟩⟩

/-- Labels that are accepted stay so when some are taken out. -/
theorem validate_of_sublist {index index' : DateIndex} (h : index'.labels.Sublist index.labels)
    (hvalid : index.validate = .ok ()) : index'.validate = .ok () := by
  rw [validate_eq_ok_iff] at hvalid ⊢
  exact ⟨fun label hm => hvalid.1 label (h.subset hm), hvalid.2.sublist h⟩

/-- **Without blanks and signs, accepted labels are the chronological ones.** -/
theorem validate_eq_ok_iff_chronological {index : DateIndex}
    (h : ∀ label ∈ index.labels, Calendar.Unsigned label.toList) :
    index.validate = .ok () ↔ index.Chronological := by
  obtain ⟨labels⟩ := index
  rw [validate_eq_ok_iff, chronological_iff]
  refine and_congr_right fun hsome => List.Pairwise.iff_of_mem fun {a b} ha hb => ?_
  obtain ⟨x, hx⟩ := hsome a ha
  obtain ⟨y, hy⟩ := hsome b hb
  rw [String.lt_iff, (spellsDay_of_ofLabel? (h a ha) hx).lt_iff (spellsDay_of_ofLabel? (h b hb) hy), hx, hy]
  simp

/-- Three days, two of them in the first years. -/
theorem validate_eq_ok_iff_chronological_early :
    (∀ label ∈ ["0000-02-29", "0001-01-01", "2020-12-31"], Calendar.Unsigned label.toList) ∧
      ((DateIndex.mk ["0000-02-29", "0001-01-01", "2020-12-31"]).validate = .ok () ↔
        (DateIndex.mk ["0000-02-29", "0001-01-01", "2020-12-31"]).Chronological) := by
  have h : ∀ label ∈ ["0000-02-29", "0001-01-01", "2020-12-31"], Calendar.Unsigned label.toList := by decide
  exact ⟨h, validate_eq_ok_iff_chronological h⟩

/-- Blanks before month and day: the second label is a day before the first, and above it as a text. -/
theorem validate_of_inner_blanks :
    (DateIndex.mk ["2020- 1- 2", "2020-01-01"]).validate = .ok () ∧
      ¬(DateIndex.mk ["2020- 1- 2", "2020-01-01"]).Chronological := by
  refine ⟨by decide, fun h => ?_⟩
  have hlt := List.rel_of_pairwise_cons (chronological_iff.1 h).2 List.mem_cons_self
  exact absurd (hlt ⟨2020, 1, 2, by decide⟩ (by decide) ⟨2020, 1, 1, by decide⟩ (by decide)) (by decide)

end DateIndex

/-! ## Series cut to a range -/

namespace Series

variable {α : Type} {s : Series α}

/-- What is left of accepted labels in a range is accepted. -/
theorem validate_within (h : s.validate = .ok ()) (range : DateRange) : (s.within range).validate = .ok () :=
  DateIndex.validate_of_sublist (List.filter_sublist.map _) h

/-- Without bounds all accepted labels are in the range. -/
theorem within_unbounded (h : s.validate = .ok ()) : s.within .unbounded = s := by
  have hdates := (DateIndex.validate_eq_ok_iff.1 h).1
  have hall : ∀ o ∈ s.observations, DateRange.unbounded.contains o.date = true := by
    intro o ho
    obtain ⟨date, hdate⟩ := hdates o.date (List.mem_map_of_mem ho)
    rw [DateRange.contains, hdate]
    rfl
  rw [within, List.filter_eq_self.2 hall]

end Series

end SeriesFormula
