import Std.Data.HashSet.Lemmas
import SeriesFormula.Proofs.Calendar.Spelling
import SeriesFormula.Proofs.Series.Validation

/-!
# The first offence of labels

Labels are looked at three times: `DateIndex.firstDescent?` goes over neighbours and counts their positions,
`DateIndex.isStrictlyAscending` only compares them, and `DateIndex.hasDuplicates` keeps a set of all labels seen.

- the first scan stops at the least position where the labels do not ascend (`firstDescent?_eq_some_iff`); there is none
  iff the second scan says so (`isStrictlyAscending_iff`, `isChain_iff_forall_not_descent`);
- the third finds nothing iff all labels are different (`hasDuplicates_eq_false_iff`), as those of an ascending index
  are, wherever they stand, since the order is transitive;
- so what is reported of labels is the first that is no date, and if all are dates the first descent
  (`validate_first_offence`).
-/

namespace SeriesFormula.DateIndex

/-! ## Labels that are no dates -/

/-- The label is read as a date. -/
def IsDate (label : String) : Prop := ∃ date, observationDate label = .ok date

theorem isDate_iff {label : String} : IsDate label ↔ ∃ date, Date.ofLabel? label = some date :=
  exists_congr fun _ => observationDate_eq_ok_iff

theorem observationDate_of_not_isDate {label : String} (h : ¬IsDate label) :
    observationDate label = .error (.invalidDate label) := by
  rw [observationDate]
  cases hdate : Date.ofLabel? label with
  | none => rfl
  | some date => exact absurd (isDate_iff.2 ⟨date, hdate⟩) h

theorem passes_iff {label : String} : discard (observationDate label) = .ok () ↔ IsDate label :=
  check_eq_ok_iff.trans isDate_iff.symm

theorem fails_of_not_isDate {label : String} (h : ¬IsDate label) :
    discard (observationDate label) = .error (.invalidDate label) := by
  rw [observationDate_of_not_isDate h]
  rfl

/-- The first label that is no date is reported, whatever the order of the labels is. -/
theorem exists_first_invalid {index : DateIndex} (h : ∃ label ∈ index.labels, ¬IsDate label) :
    ∃ before label after, index.labels = before ++ label :: after ∧ (∀ b ∈ before, IsDate b) ∧ ¬IsDate label ∧
      index.validate = .error (.invalidDate label) := by
  cases hread : index.labels.forM fun label => discard (observationDate label) with
  | ok _ =>
    obtain ⟨label, hmem, hlabel⟩ := h
    exact absurd (passes_iff.1 (forM_eq_ok_iff.1 hread label hmem)) hlabel
  | error error =>
    -- the order is not looked at behind a label that fails
    obtain ⟨before, label, after, hlabels, hbefore, hfails⟩ := forM_eq_error_iff.1 hread
    have hlabel : ¬IsDate label := by
      intro hdate
      rw [passes_iff.2 hdate] at hfails
      cases hfails
    refine ⟨before, label, after, hlabels, fun b hb => passes_iff.1 (hbefore b hb), hlabel, ?_⟩
    rw [fails_of_not_isDate hlabel] at hfails
    rw [validate_eq, hread, ← hfails]
    rfl

/-- Of dates the first descent is reported. -/
theorem validate_of_isDate {index : DateIndex} (h : ∀ label ∈ index.labels, IsDate label) :
    index.validate = index.firstDescent?.elim (.ok ()) .error := by
  rw [validate_eq, forM_eq_ok_iff.2 fun label hmem => passes_iff.2 (h label hmem)]
  rfl

/-! ## Descents -/

/-- At a position stands a label that is not above the one before it. -/
structure Descent (index : DateIndex) (position : Nat) (previous current : String) : Prop where
  pos : 1 ≤ position
  before : index.label? (position - 1) = some previous
  here : index.label? position = some current
  not_lt : ¬previous < current

variable {index : DateIndex}

theorem Descent.lt_length {position : Nat} {previous current : String} (h : index.Descent position previous current) :
    position < index.length := (List.getElem?_eq_some_iff.1 h.here).1

/-- A descent is a pair of neighbours, and its position is that of the second. -/
theorem descent_succ_iff {k : Nat} {previous current : String} : index.Descent (k + 1) previous current ↔
    index.neighbours[k]? = some (previous, current) ∧ ¬previous < current := by
  rw [neighbours, List.getElem?_zip_eq_some, List.getElem?_tail]
  exact ⟨fun h => ⟨⟨h.before, h.here⟩, h.not_lt⟩, fun h => ⟨Nat.succ_pos k, h.1.1, h.1.2, h.2⟩⟩

/-- Labels ascend iff there is no descent at any position. -/
theorem isChain_iff_forall_not_descent :
    index.labels.IsChain (· < ·) ↔ ∀ position previous current, ¬index.Descent position previous current := by
  rw [← forall_neighbours_iff]
  constructor
  · rintro hlt (_ | k) previous current h
    · exact absurd h.pos (Nat.not_succ_le_zero 0)
    · obtain ⟨hk, hge⟩ := descent_succ_iff.1 h
      exact hge (hlt _ (List.mem_of_getElem? hk))
  · intro hnone pair hmem
    obtain ⟨k, hk⟩ := List.getElem?_of_mem hmem
    by_contra hge
    exact hnone (k + 1) pair.1 pair.2 (descent_succ_iff.2 ⟨hk, hge⟩)

/-- A search that counts its positions from `n` on stops at the first member that does not pass. -/
theorem findSome?_zipIdx_eq_some_iff {α β : Type} {p : α → Prop} [DecidablePred p] {g : α → Nat → β} {xs : List α}
    {n : Nat} {b : β} :
    ((xs.zipIdx n).findSome? fun entry => if p entry.1 then none else some (g entry.1 entry.2)) = some b ↔
      ∃ k x, xs[k]? = some x ∧ ¬p x ∧ (∀ j < k, ∀ y, xs[j]? = some y → p y) ∧ b = g x (n + k) := by
  -- a member that passes moves the first number and the position by one
  induction xs generalizing n with
  | nil => simp
  | cons x xs ih =>
    rw [List.zipIdx_cons, List.findSome?_cons]
    by_cases hx : p x
    · simp only [if_pos hx, ih]
      constructor
      · rintro ⟨k, y, hk, hy, hbefore, rfl⟩
        refine ⟨k + 1, y, hk, hy, fun j hj z hz => ?_, by rw [Nat.add_right_comm, Nat.add_assoc]⟩
        cases j with
        | zero =>
          cases hz
          exact hx
        | succ j => exact hbefore j (Nat.lt_of_succ_lt_succ hj) z hz
      · rintro ⟨_ | k, y, hk, hy, hbefore, rfl⟩
        · cases hk
          exact absurd hx hy
        · exact ⟨k, y, hk, hy, fun j hj => hbefore (j + 1) (Nat.succ_lt_succ hj),
            by rw [Nat.add_right_comm, Nat.add_assoc]⟩
    · simp only [if_neg hx]
      constructor
      · rintro ⟨⟩
        exact ⟨0, x, rfl, hx, nofun, rfl⟩
      · rintro ⟨_ | k, y, hk, hy, hbefore, rfl⟩
        · cases hk
          rfl
        · exact absurd (hbefore 0 (Nat.succ_pos k) x rfl) hx

/-- **The descent that is found is the one at the least position**, with the two labels there. -/
theorem firstDescent?_eq_some_iff {error : DataError} : index.firstDescent? = some error ↔
    ∃ position previous current, index.Descent position previous current ∧
      (∀ j < position, ∀ a b, ¬index.Descent j a b) ∧ error = .notAscending position previous current := by
  have hscan : index.firstDescent? = some error ↔ ∃ k pair, index.neighbours[k]? = some pair ∧ ¬pair.1 < pair.2 ∧
      (∀ j < k, ∀ other, index.neighbours[j]? = some other → other.1 < other.2) ∧
      error = .notAscending (1 + k) pair.1 pair.2 :=
    findSome?_zipIdx_eq_some_iff (p := fun pair : String × String => pair.1 < pair.2)
      (g := fun pair position => DataError.notAscending position pair.1 pair.2)
  rw [hscan]
  -- pairs are counted from zero, and the second label of a pair is one further
  constructor
  · rintro ⟨k, pair, hk, hge, hbefore, rfl⟩
    refine ⟨k + 1, pair.1, pair.2, descent_succ_iff.2 ⟨hk, hge⟩, ?_, by rw [Nat.add_comm]⟩
    rintro (_ | j) hj a b h
    · exact absurd h.pos (Nat.not_succ_le_zero 0)
    · obtain ⟨hj', hge'⟩ := descent_succ_iff.1 h
      exact hge' (hbefore j (Nat.lt_of_succ_lt_succ hj) (a, b) hj')
  · rintro ⟨_ | k, previous, current, h, hbefore, rfl⟩
    · exact absurd h.pos (Nat.not_succ_le_zero 0)
    · obtain ⟨hk, hge⟩ := descent_succ_iff.1 h
      refine ⟨k, (previous, current), hk, hge, fun j hj other hother => ?_, by rw [Nat.add_comm]⟩
      by_contra hge'
      exact hbefore (j + 1) (Nat.succ_lt_succ hj) other.1 other.2 (descent_succ_iff.2 ⟨hother, hge'⟩)

/-! ## Ascending labels and duplicates -/

theorem isStrictlyAscending_iff : index.isStrictlyAscending = true ↔ index.labels.Pairwise (· < ·) := by
  rw [← List.isChain_iff_pairwise, ← forall_neighbours_iff, isStrictlyAscending, List.all_eq_true]
  exact forall₂_congr fun pair _ => decide_eq_true_iff

/-- No label is found twice iff all are different, and none was seen before. -/
theorem repeats_eq_false_iff (seen : Std.HashSet String) (labels : List String) :
    repeats seen labels = false ↔ labels.Nodup ∧ ∀ label ∈ labels, seen.contains label = false := by
  induction labels generalizing seen with
  | nil => simp [repeats]
  | cons label labels ih =>
    rw [repeats, Bool.or_eq_false_iff, ih, List.nodup_cons, List.forall_mem_cons]
    simp only [Std.HashSet.contains_insert, Bool.or_eq_false_iff, beq_eq_false_iff_ne]
    constructor
    · rintro ⟨hlabel, hnodup, hseen⟩
      exact ⟨⟨fun hmem => (hseen label hmem).1 rfl, hnodup⟩, hlabel, fun other hmem => (hseen other hmem).2⟩
    · rintro ⟨⟨hnot, hnodup⟩, hlabel, hseen⟩
      exact ⟨hlabel, hnodup, fun other hmem => ⟨fun heq => hnot (heq ▸ hmem), hseen other hmem⟩⟩

theorem hasDuplicates_eq_false_iff : index.hasDuplicates = false ↔ index.labels.Nodup := by
  rw [hasDuplicates, repeats_eq_false_iff]
  exact and_iff_left fun _ _ => Std.HashSet.contains_empty

/-! ## What is reported -/

/-- **Validation reports the first offence and agrees with the other checks.** If some label is no date, the first such
label is reported, whatever the order of the labels is. If all are dates but some label is not above the one before it,
the least position of such a label is reported, with the two labels. Otherwise the labels are accepted. So exactly those
are accepted that are dates and strictly ascending, and strictly ascending labels hold no duplicates. -/
theorem validate_first_offence (index : DateIndex) :
    ((∃ label ∈ index.labels, ¬IsDate label) →
      ∃ before label after, index.labels = before ++ label :: after ∧ (∀ b ∈ before, IsDate b) ∧
        observationDate label = .error (.invalidDate label) ∧ index.validate = .error (.invalidDate label)) ∧
    ((∀ label ∈ index.labels, IsDate label) →
      ((∃ position previous current, index.Descent position previous current) →
        ∃ position previous current, index.Descent position previous current ∧ position < index.length ∧
          (∀ j < position, ∀ a b, ¬index.Descent j a b) ∧
          index.validate = .error (.notAscending position previous current)) ∧
      ((∀ position previous current, ¬index.Descent position previous current) → index.validate = .ok ())) ∧
    (index.validate = .ok () ↔ (∀ label ∈ index.labels, IsDate label) ∧ index.isStrictlyAscending = true) ∧
    (index.isStrictlyAscending = true → index.hasDuplicates = false) := by
  refine ⟨fun hinvalid => ?_, fun hdates => ⟨fun hdescent => ?_, fun hnone => ?_⟩, ?_, fun hascending => ?_⟩
  · obtain ⟨before, label, after, hlabels, hbefore, hlabel, hvalidate⟩ := exists_first_invalid hinvalid
    exact ⟨before, label, after, hlabels, hbefore, observationDate_of_not_isDate hlabel, hvalidate⟩
  · rw [validate_of_isDate hdates]
    cases hfirst : index.firstDescent? with
    | none =>
      obtain ⟨position, previous, current, h⟩ := hdescent
      have hchain := (firstDescent?_eq_none_iff index).1 hfirst
      exact absurd h (isChain_iff_forall_not_descent.1 hchain position previous current)
    | some error =>
      obtain ⟨position, previous, current, h, hleast, rfl⟩ := firstDescent?_eq_some_iff.1 hfirst
      exact ⟨position, previous, current, h, h.lt_length, hleast, rfl⟩
  · rw [validate_of_isDate hdates,
      (firstDescent?_eq_none_iff index).2 (isChain_iff_forall_not_descent.2 hnone)]
    rfl
  · rw [validate_eq_ok_iff, isStrictlyAscending_iff]
    exact and_congr_left fun _ => forall₂_congr fun label _ => isDate_iff.symm
  · rw [hasDuplicates_eq_false_iff]
    exact (isStrictlyAscending_iff.1 hascending).nodup

/-- The third label is no date, though the second is already below the first. -/
example : validate ⟨["2020-03-01", "2020-02-01", "2020Q2"]⟩ = .error (.invalidDate "2020Q2") := by decide

end SeriesFormula.DateIndex
