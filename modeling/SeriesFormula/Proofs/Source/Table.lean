import SeriesFormula.Proofs.Csv.Record
import SeriesFormula.Proofs.Decimal.ReadBack
import SeriesFormula.Proofs.Result
import SeriesFormula.Proofs.Text.Case
import SeriesFormula.Source.Table

/-!
# Tables that read back

What is read from a table and what reads back from one meet at two properties of a series: its labels are accepted
and its values finite (`Series.IsSound`), and its labels have no blanks at the ends (`Series.IsTrimmed`).

- a written value is never taken for a missing one and reads back (`observationValue_cell`), and a value that is read
  is finite (`isFinite_of_observationValue`);
- the table of a series with finite values reads as the series with its labels trimmed
  (`Series.ofTable_table_of_isFinite`), hence a sound series reads back iff it is trimmed (`Series.ofTable_table_iff`);
- a series that is read from a table is sound and trimmed (`Series.of_ofTable`), and so its table reads back as
  itself (`Series.ofTable_table`).
-/

namespace SeriesFormula

/-! ## Headers -/

/-- The columns of a written table. -/
theorem Columns.locate_written : Columns.locate ["date", "value"] = .ok ⟨0, 1⟩ := by
  simp only [Columns.locate, Text.sameLetters_eq]
  decide

/-! ## Cells -/

/-- No mark for a missing value is a number. -/
theorem literal?_of_mem_missingMarkers : ∀ marker ∈ missingMarkers, Decimal.literal? marker.toList = none := by decide

/-- The value is missing or finite. -/
def Observation.IsFinite (o : Observation Float) : Prop := ∀ x ∈ o.value, Decimal.isFinite x

/-- A value that is read is finite. -/
theorem isFinite_of_observationValue {text : String} {x : Float} (h : observationValue text = .ok (some x)) :
    Decimal.isFinite x := by
  unfold observationValue at h
  dsimp only at h
  split at h
  · cases h
  · split at h
    next value hvalue =>
      cases h
      exact (Option.filter_eq_some_iff.1 hvalue).2
    next => cases h

/-- A record is read iff it is as long as the headers and its value is accepted; the observation is made up of the fields
in the two columns. -/
theorem Columns.observation_eq_ok_iff {columns : Columns} {name : String} {width row : Nat} {record : List String}
    {o : Observation Float} : columns.observation name width row record = .ok o ↔
      record.length = width ∧ o.date = record.getD columns.date "" ∧
        observationValue (record.getD columns.value "") = .ok o.value := by
  unfold Columns.observation
  by_cases hwidth : record.length = width
  · simp only [hwidth, if_true, true_and, bind_eq_ok_iff, mapError_eq_ok_iff, pure, Except.pure, Except.ok.injEq]
    constructor
    · rintro ⟨value, hvalue, rfl⟩
      exact ⟨rfl, hvalue⟩
    · rintro ⟨hdate, hvalue⟩
      exact ⟨o.value, hvalue, by rw [← hdate]⟩
  · simp [hwidth, bind, Except.bind, throw, throwThe, MonadExceptOf.throw]

namespace Series

/-- A cell has no blanks. -/
theorem solid_cell {value : Option Float} (h : ∀ x ∈ value, Decimal.isFinite x) : Text.Solid (cell value) := by
  cases value with
  | none => exact nofun
  | some x =>
    obtain ⟨l, hl, -⟩ := Decimal.exists_spells_chars (h x rfl)
    exact hl.solid

/-- **A written value reads back.** -/
theorem observationValue_cell {value : Option Float} (h : ∀ x ∈ value, Decimal.isFinite x) :
    observationValue (String.ofList (cell value)) = .ok value := by
  have htrim : Text.trimmed (String.ofList (cell value)) = String.ofList (cell value) := by
    rw [Text.trimmed, String.toList_ofList, Text.trim_of_solid (solid_cell h)]
  unfold observationValue
  rw [htrim]
  cases value with
  | none => rfl
  | some x =>
    obtain ⟨l, hl, hx⟩ := Decimal.exists_spells_chars (h x rfl)
    have hmarker : missingMarkers.contains (String.ofList (Decimal.plain.chars x)) = false := by
      rw [Bool.eq_false_iff, ne_eq, List.contains_iff_mem]
      intro hm
      have := literal?_of_mem_missingMarkers _ hm
      rw [String.toList_ofList, Decimal.literal?_eq_some_iff.2 hl] at this
      cases this
    have hnumber : Decimal.numeric? (Decimal.plain.chars x) = some x :=
      (Decimal.numeric?_eq_some_iff hl.solid).2 ⟨l, hl, hx ▸ h x rfl, hx⟩
    simp only [cell, hmarker, String.toList_ofList, hnumber, Bool.false_eq_true, if_false]

/-! ## Series that are read and written -/

/-- The labels are accepted and the values finite. -/
structure IsSound (s : Series Float) : Prop where
  accepted : s.validate = .ok ()
  finite : ∀ o ∈ s.observations, o.IsFinite

/-- No label has blanks at its ends. -/
def IsTrimmed (s : Series Float) : Prop := ∀ o ∈ s.observations, Text.trimmed o.date = o.date

/-- Observations make a series iff their labels are accepted. -/
theorem validated_eq_ok_iff {name : String} {observations : List (Observation Float)} {s : Series Float} :
    validated name observations = .ok s ↔ s = ⟨name, observations⟩ ∧ s.validate = .ok () := by
  simp only [validated, bind_eq_ok_iff, mapError_eq_ok_iff, pure, Except.pure, Except.ok.injEq]
  constructor
  · rintro ⟨⟨⟩, h, rfl⟩
    exact ⟨rfl, h⟩
  · rintro ⟨rfl, h⟩
    exact ⟨(), h, rfl⟩

/-! ## Writing, then reading -/

/-- The records of a table: its headers, then one for each observation. -/
theorem records_tableChars {s : Series Float} (h : ∀ o ∈ s.observations, o.IsFinite) :
    Csv.records s.tableChars =
      ["date", "value"] :: s.observations.map fun o => [Text.trimmed o.date, String.ofList (cell o.value)] := by
  have hrows : s.tableChars = Csv.rowsChars (("date".toList, "value".toList) ::
      s.observations.map fun o => (o.date.toList, cell o.value)) := by
    rw [tableChars, Csv.rowsChars, List.flatMap_cons, List.flatMap_map]
  rw [hrows, Csv.records_rowsChars rfl, List.map_cons, List.map_map]
  refine congrArg₂ List.cons (by decide) (List.map_congr_left fun o ho => ?_)
  simp only [Function.comp_apply, Text.trimmed, Text.trim_of_solid (solid_cell (h o ho))]

/-- The records of observations read as these, with their labels trimmed. -/
theorem mapM_observation {name : String} {observations : List (Observation Float)}
    (h : ∀ o ∈ observations, o.IsFinite) (row : Nat) :
    ((observations.map fun o => [Text.trimmed o.date, String.ofList (cell o.value)]).zipIdx row).mapM
        (fun (record, row) => Columns.observation ⟨0, 1⟩ name 2 row record) =
      .ok (observations.map fun o => { o with date := Text.trimmed o.date }) := by
  induction observations generalizing row with
  | nil => rfl
  | cons o observations ih =>
    obtain ⟨ho, hrest⟩ := List.forall_mem_cons.1 h
    have hrow : Columns.observation ⟨0, 1⟩ name 2 row [Text.trimmed o.date, String.ofList (cell o.value)] =
        .ok { o with date := Text.trimmed o.date } := by
      simp [Columns.observation, observationValue_cell ho, Except.mapError, bind, Except.bind, pure, Except.pure]
    rw [List.map_cons, List.zipIdx_cons, List.mapM_cons, List.map_cons]
    simp only [hrow, ih hrest, bind, Except.bind, pure, Except.pure]

/-- A table of finite values reads as the series with its labels trimmed, if these are accepted. -/
theorem ofTable_table_of_isFinite {s : Series Float} (h : ∀ o ∈ s.observations, o.IsFinite) (name : String) :
    ofTable name s.table = validated name (s.observations.map fun o => { o with date := Text.trimmed o.date }) := by
  simp only [ofTable, table, String.toList_ofList, records_tableChars h, Columns.locate_written, List.length_cons,
    List.length_nil, mapM_observation h, bind, Except.bind]

/-- **A sound series reads back from its table iff it is trimmed.** -/
theorem ofTable_table_iff {s : Series Float} (h : s.IsSound) : ofTable s.name s.table = .ok s ↔ s.IsTrimmed := by
  rw [ofTable_table_of_isFinite h.finite, validated_eq_ok_iff]
  constructor
  · -- the labels that are read are trimmed, so a series that reads back has no others
    rintro ⟨hs, -⟩ o ho
    rw [hs] at ho
    obtain ⟨o', -, rfl⟩ := List.mem_map.1 ho
    exact Text.trimmed_trimmed o'.date
  · intro ht
    have hself : (s.observations.map fun o => { o with date := Text.trimmed o.date }) = s.observations := by
      conv_rhs => rw [← List.map_id s.observations]
      exact List.map_congr_left fun o ho => by rw [ht o ho]; rfl
    exact ⟨by rw [hself], h.accepted⟩

/-! ## Reading, then writing -/

/-- **A series from a table is sound and trimmed.** -/
theorem of_ofTable {name text : String} {s : Series Float} (h : ofTable name text = .ok s) :
    s.name = name ∧ s.IsSound ∧ s.IsTrimmed := by
  unfold ofTable at h
  split at h
  next => cases h
  next headers rows hrecords =>
    simp only [bind_eq_ok_iff, validated_eq_ok_iff] at h
    obtain ⟨columns, -, observations, hobservations, rfl, hvalid⟩ := h
    have hread : ∀ o ∈ observations, ∃ record ∈ rows, o.date = record.getD columns.date "" ∧
        observationValue (record.getD columns.value "") = .ok o.value := by
      intro o ho
      obtain ⟨⟨record, row⟩, hmem, hrow⟩ := exists_of_mapM_eq_ok hobservations ho
      exact ⟨record, List.fst_mem_of_mem_zipIdx hmem, (Columns.observation_eq_ok_iff.1 hrow).2⟩
    refine ⟨rfl, ⟨hvalid, fun o ho x hx => ?_⟩, fun o ho => ?_⟩
    · obtain ⟨record, -, -, hvalue⟩ := hread o ho
      rw [Option.mem_def.1 hx] at hvalue
      exact isFinite_of_observationValue hvalue
    · obtain ⟨record, hrecord, hdate, -⟩ := hread o ho
      rw [hdate]
      exact Csv.trimmed_getD (hrecords ▸ List.mem_cons_of_mem headers hrecord) columns.date

/-- **The table of a series from a table reads back as that series.** -/
theorem ofTable_table {name text : String} {s : Series Float} (h : ofTable name text = .ok s) :
    ofTable name s.table = .ok s := by
  obtain ⟨rfl, hsound, htrimmed⟩ := of_ofTable h
  exact (ofTable_table_iff hsound).2 htrimmed

/-- The columns exchanged, a missing value, and a date that goes on in the next line. -/
theorem ofTable_table_of_exchanged :
    ofTable "x" "Value , DATE\n NA ,\"2020-1-\n 1\"\n\"1.50\", 2020-12-01 \n" =
        .ok ⟨"x", [⟨"2020-1-\n 1", none⟩, ⟨"2020-12-01", some 1.5⟩]⟩ ∧
      ofTable "x" (table ⟨"x", [⟨"2020-1-\n 1", none⟩, ⟨"2020-12-01", some 1.5⟩]⟩) =
        .ok ⟨"x", [⟨"2020-1-\n 1", none⟩, ⟨"2020-12-01", some 1.5⟩]⟩ := by
  have hrecords : Csv.records "Value , DATE\n NA ,\"2020-1-\n 1\"\n\"1.50\", 2020-12-01 \n".toList =
      [["Value", "DATE"], ["NA", "2020-1-\n 1"], ["1.50", "2020-12-01"]] := by decide +kernel
  have h : ofTable "x" "Value , DATE\n NA ,\"2020-1-\n 1\"\n\"1.50\", 2020-12-01 \n" =
      .ok ⟨"x", [⟨"2020-1-\n 1", none⟩, ⟨"2020-12-01", some 1.5⟩]⟩ := by
    simp only [ofTable, hrecords, Columns.locate, Text.sameLetters_eq]
    decide +kernel
  exact ⟨h, ofTable_table h⟩

end Series

end SeriesFormula
