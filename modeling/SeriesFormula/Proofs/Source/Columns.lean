import SeriesFormula.Proofs.Series.Validation
import SeriesFormula.Proofs.Source.Table

/-!
# The columns of a table

The two columns of a table are found by its headers (`Columns.AreOf`, `Columns.locate_areOf`): both are there, a header
that names a column decides it, and the first header of a name counts.

- the two columns are one and the same only if the first header is `value` and no header is `date`
  (`Columns.AreOf.same_iff`);
- a table is read iff all its records are as long as the headers, the cells of the one column are numbers or missing
  and those of the other dates in order; each observation is then made up of the two cells of its record
  (`Series.ofTable_reads_columns`);
- where the columns are the same, a table of good dates and values may be refused (`Series.ofTable_of_value_first`).
-/

namespace SeriesFormula

/-! ## Finding the columns -/

namespace Columns

variable {headers : List String} {word : String} {i : Nat}

/-- The header at the position is the word, in letters of any case. -/
def IsHeaded (headers : List String) (word : String) (i : Nat) : Prop :=
  ∃ header, headers[i]? = some header ∧ Text.sameLetters header word = true

/-- The first header that is the word stands at the position. -/
def IsFirstHeaded (headers : List String) (word : String) (i : Nat) : Prop :=
  IsHeaded headers word i ∧ ∀ j < i, ¬IsHeaded headers word j

theorem isHeaded_iff : IsHeaded headers word i ↔ ∃ h : i < headers.length, Text.sameLetters headers[i] word := by
  simp [IsHeaded, List.getElem?_eq_some_iff]

theorem IsHeaded.lt (h : IsHeaded headers word i) : i < headers.length := (isHeaded_iff.1 h).1

/-- No header is two words. -/
theorem IsHeaded.not_value (hdate : IsHeaded headers "date" i) : ¬IsHeaded headers "value" i := by
  rintro ⟨header, hheader, hvalue⟩
  obtain ⟨header', hheader', hdate⟩ := hdate
  obtain rfl : header = header' := Option.some.inj (hheader.symm.trans hheader')
  simp only [Text.sameLetters_eq, decide_eq_true_eq] at hdate hvalue
  exact absurd (hdate.symm.trans hvalue) (by decide)

theorem findIdx?_eq_some_iff :
    headers.findIdx? (Text.sameLetters · word) = some i ↔ IsFirstHeaded headers word i := by
  rw [List.findIdx?_eq_some_iff_getElem, IsFirstHeaded, isHeaded_iff]
  constructor
  · rintro ⟨hi, hword, hbefore⟩
    refine ⟨⟨hi, hword⟩, fun j hj hheaded => hbefore j hj (isHeaded_iff.1 hheaded).2⟩
  · rintro ⟨⟨hi, hword⟩, hbefore⟩
    exact ⟨hi, hword, fun j hj hheaded => hbefore j hj (isHeaded_iff.2 ⟨hj.trans hi, hheaded⟩)⟩

theorem findIdx?_eq_none_iff :
    headers.findIdx? (Text.sameLetters · word) = none ↔ ∀ i, ¬IsHeaded headers word i := by
  rw [List.findIdx?_eq_none_iff]
  constructor
  · rintro h i ⟨header, hheader, hword⟩
    rw [h header (List.mem_of_getElem? hheader)] at hword
    cases hword
  · intro h header hmem
    obtain ⟨i, hi, rfl⟩ := List.getElem_of_mem hmem
    exact Bool.eq_false_iff.2 fun hword => h i (isHeaded_iff.2 ⟨hi, hword⟩)

/-- No header is the word, or one is the first. -/
theorem unheaded_or_first (headers : List String) (word : String) :
    (∀ i, ¬IsHeaded headers word i) ∨ ∃ i, IsFirstHeaded headers word i := by
  cases h : headers.findIdx? (Text.sameLetters · word) with
  | none => exact .inl (findIdx?_eq_none_iff.1 h)
  | some i => exact .inr ⟨i, findIdx?_eq_some_iff.1 h⟩

theorem getD_of_first (h : IsFirstHeaded headers word i) (other : Nat) :
    (headers.findIdx? (Text.sameLetters · word)).getD other = i := by
  rw [findIdx?_eq_some_iff.2 h, Option.getD_some]

theorem getD_of_unheaded (h : ∀ i, ¬IsHeaded headers word i) (other : Nat) :
    (headers.findIdx? (Text.sameLetters · word)).getD other = other := by
  rw [findIdx?_eq_none_iff.2 h, Option.getD_none]

/-- The columns are those that the headers ask for. -/
structure AreOf (columns : Columns) (headers : List String) : Prop where
  date_lt : columns.date < headers.length
  value_lt : columns.value < headers.length
  date_of_first : ∀ i, IsFirstHeaded headers "date" i → columns.date = i
  date_of_unheaded : (∀ i, ¬IsHeaded headers "date" i) → columns.date = 0
  value_of_first : ∀ i, IsFirstHeaded headers "value" i → columns.value = i
  value_of_unheaded : (∀ i, ¬IsHeaded headers "value" i) → columns.value = if columns.date = 0 then 1 else 0
  /-- Dates and values share a column only where no header is `date` and the first one is `value`. -/
  same_iff : columns.date = columns.value ↔ (∀ i, ¬IsHeaded headers "date" i) ∧ IsHeaded headers "value" 0

/-- **Two headers or more** have both columns. -/
theorem locate_areOf (h : 2 ≤ headers.length) :
    ∃ columns, Columns.locate headers = .ok columns ∧ columns.AreOf headers := by
  rw [locate, if_neg (by omega)]
  refine ⟨_, rfl, ?date_lt, ?value_lt, fun i hi => getD_of_first hi 0, fun hi => getD_of_unheaded hi 0,
    fun i hi => getD_of_first hi _, fun hi => getD_of_unheaded hi _, ?same_iff⟩
  case date_lt =>
    dsimp only
    rcases unheaded_or_first headers "date" with hdate | ⟨i, hdate⟩
    · rw [getD_of_unheaded hdate]
      omega
    · rw [getD_of_first hdate]
      exact hdate.1.lt
  case value_lt =>
    dsimp only
    rcases unheaded_or_first headers "value" with hvalue | ⟨j, hvalue⟩
    · rw [getD_of_unheaded hvalue]
      split <;> omega
    · rw [getD_of_first hvalue]
      exact hvalue.1.lt
  case same_iff =>
    dsimp only
    rcases unheaded_or_first headers "date" with hdate | ⟨i, hdate⟩ <;>
      rcases unheaded_or_first headers "value" with hvalue | ⟨j, hvalue⟩
    · simp [getD_of_unheaded hdate, getD_of_unheaded hvalue, hvalue]
    · -- dates are in the first column, which is that of the values iff it is headed so
      rw [getD_of_unheaded hdate, getD_of_first hvalue, and_iff_right hdate]
      constructor
      · rintro rfl
        exact hvalue.1
      · intro hfirst
        by_contra hne
        exact hvalue.2 0 (by omega) hfirst
    · rw [getD_of_first hdate, getD_of_unheaded hvalue]
      refine iff_of_false (fun hsame => ?_) fun hi => hi.1 i hdate.1
      split at hsame <;> omega
    · rw [getD_of_first hdate, getD_of_first hvalue]
      refine iff_of_false (fun hsame => hdate.1.not_value ?_) fun hi => hi.1 i hdate.1
      rw [hsame]
      exact hvalue.1

end Columns

/-! ## Reading the cells -/

/-- The cells of a table in one column. -/
def Csv.column (rows : List (List String)) (i : Nat) : List String := rows.filterMap (·[i]?)

theorem Csv.column_cons {record : List String} {i : Nat} {cell : String} (h : record[i]? = some cell)
    (rows : List (List String)) : Csv.column (record :: rows) i = cell :: Csv.column rows i := by
  simp [column, h]

/-- The observation is made up of the two cells of a record. -/
def Columns.Pairs (columns : Columns) (record : List String) (o : Observation Float) : Prop :=
  record[columns.date]? = some o.date ∧
    ∃ cell, record[columns.value]? = some cell ∧ observationValue cell = .ok o.value

namespace Columns

variable {columns : Columns} {rows : List (List String)} {observations : List (Observation Float)}

/-- The dates are the cells of their column. -/
theorem column_date (h : List.Forall₂ columns.Pairs rows observations) :
    Csv.column rows columns.date = observations.map (·.date) := by
  induction h with
  | nil => rfl
  | cons hpair _ ih => rw [Csv.column_cons hpair.1, ih, List.map_cons]

/-- The values are read from the cells of their column. -/
theorem exists_of_mem_column_value (h : List.Forall₂ columns.Pairs rows observations) :
    ∀ cell ∈ Csv.column rows columns.value, ∃ value, observationValue cell = .ok value := by
  induction h with
  | nil => exact nofun
  | cons hpair _ ih =>
    obtain ⟨-, cell, hcell, hvalue⟩ := hpair
    rw [Csv.column_cons hcell]
    exact List.forall_mem_cons.2 ⟨⟨_, hvalue⟩, ih⟩

/-- Records that are long enough and hold values make up observations. -/
theorem exists_pairs (hdate : ∀ record ∈ rows, columns.date < record.length)
    (hvalue : ∀ record ∈ rows, columns.value < record.length)
    (hcells : ∀ cell ∈ Csv.column rows columns.value, ∃ value, observationValue cell = .ok value) :
    ∃ observations, List.Forall₂ columns.Pairs rows observations := by
  induction rows with
  | nil => exact ⟨[], .nil⟩
  | cons record rows ih =>
    obtain ⟨hd, hdate⟩ := List.forall_mem_cons.1 hdate
    obtain ⟨hv, hvalue⟩ := List.forall_mem_cons.1 hvalue
    have hcell : record[columns.value]? = some record[columns.value] := List.getElem?_eq_getElem hv
    rw [Csv.column_cons hcell, List.forall_mem_cons] at hcells
    obtain ⟨⟨value, hread⟩, hcells⟩ := hcells
    obtain ⟨observations, hrows⟩ := ih hdate hvalue hcells
    have hpair : columns.Pairs record ⟨record[columns.date], value⟩ :=
      ⟨List.getElem?_eq_getElem hd, record[columns.value], hcell, hread⟩
    exact ⟨_ :: observations, .cons hpair hrows⟩

end Columns

namespace Series

variable {name text : String} {headers : List String} {rows : List (List String)} {columns : Columns}

/-- A table is read record by record, and its labels are checked in the end. -/
theorem ofTable_eq_ok_iff (hrecords : Csv.records text.toList = headers :: rows)
    (hcolumns : Columns.locate headers = .ok columns) (hof : columns.AreOf headers) {s : Series Float} :
    ofTable name text = .ok s ↔ s.name = name ∧
      List.Forall₂ (fun record o => record.length = headers.length ∧ columns.Pairs record o) rows s.observations ∧
      s.validate = .ok () := by
  have hread : ∀ (record : List String) (row : Nat) (o : Observation Float),
      columns.observation name headers.length row record = .ok o ↔
        record.length = headers.length ∧ columns.Pairs record o := by
    intro record row o
    rw [Columns.observation_eq_ok_iff]
    refine and_congr_right fun hlength => ?_
    have hdate : columns.date < record.length := hlength ▸ hof.date_lt
    have hvalue : columns.value < record.length := hlength ▸ hof.value_lt
    simp [Columns.Pairs, List.getD_eq_getElem?_getD, hdate, hvalue, eq_comm]
  have hrows : ∀ (row : Nat) (observations : List (Observation Float)),
      List.Forall₂ (fun x o => columns.observation name headers.length x.2 x.1 = .ok o) (rows.zipIdx row) observations ↔
        List.Forall₂ (fun record o => record.length = headers.length ∧ columns.Pairs record o) rows observations := by
    intro row observations
    conv_rhs => rw [← List.zipIdx_map_fst row rows, List.forall₂_map_left_iff]
    simp only [hread]
  unfold ofTable
  rw [hrecords]
  simp only [hcolumns, bind_eq_ok_iff, mapM_eq_ok_iff, validated_eq_ok_iff, Except.ok.injEq]
  constructor
  · rintro ⟨_, rfl, observations, hobservations, rfl, hvalid⟩
    exact ⟨rfl, (hrows 1 observations).1 hobservations, hvalid⟩
  · rintro ⟨rfl, hobservations, hvalid⟩
    exact ⟨columns, rfl, s.observations, (hrows 1 s.observations).2 hobservations, rfl, hvalid⟩

/-- **What is read from a table** with two columns or more. The columns are those that the headers ask for. The table is
read iff each record is as long as the headers, the cells of the one column are numbers or missing, and those of the
other are dates in the order of their texts; and each observation then has the two cells of its record. -/
theorem ofTable_reads_columns (hrecords : Csv.records text.toList = headers :: rows) (hwidth : 2 ≤ headers.length) :
    ∃ columns, Columns.locate headers = .ok columns ∧ columns.AreOf headers ∧
      ((∃ s, ofTable name text = .ok s) ↔ (∀ record ∈ rows, record.length = headers.length) ∧
        (∀ cell ∈ Csv.column rows columns.value, ∃ value, observationValue cell = .ok value) ∧
        (∀ label ∈ Csv.column rows columns.date, ∃ day, Date.ofLabel? label = some day) ∧
        (Csv.column rows columns.date).Pairwise (· < ·)) ∧
      ∀ s, ofTable name text = .ok s → s.name = name ∧ List.Forall₂ columns.Pairs rows s.observations := by
  obtain ⟨columns, hcolumns, hof⟩ := Columns.locate_areOf hwidth
  have hread : ∀ s, ofTable name text = .ok s ↔ s.name = name ∧
      ((∀ record ∈ rows, record.length = headers.length) ∧ List.Forall₂ columns.Pairs rows s.observations) ∧
      s.validate = .ok () := by
    intro s
    rw [ofTable_eq_ok_iff hrecords hcolumns hof, List.forall₂_and_left]
  refine ⟨columns, hcolumns, hof, ⟨?_, ?_⟩, fun s hs => ⟨((hread s).1 hs).1, ((hread s).1 hs).2.1.2⟩⟩
  · rintro ⟨s, hs⟩
    obtain ⟨-, ⟨hlength, hpairs⟩, hvalid⟩ := (hread s).1 hs
    refine ⟨hlength, Columns.exists_of_mem_column_value hpairs, ?_⟩
    rw [Columns.column_date hpairs]
    exact DateIndex.validate_eq_ok_iff.1 hvalid
  · rintro ⟨hlength, hcells, hdates⟩
    have hdate : ∀ record ∈ rows, columns.date < record.length := fun record hrecord => by
      rw [hlength record hrecord]
      exact hof.date_lt
    have hvalue : ∀ record ∈ rows, columns.value < record.length := fun record hrecord => by
      rw [hlength record hrecord]
      exact hof.value_lt
    obtain ⟨observations, hpairs⟩ := Columns.exists_pairs hdate hvalue hcells
    rw [Columns.column_date hpairs] at hdates
    exact ⟨⟨name, observations⟩, (hread _).2 ⟨rfl, ⟨hlength, hpairs⟩, DateIndex.validate_eq_ok_iff.2 hdates⟩⟩

/-- The columns exchanged and a third one between them, with a missing value. -/
theorem ofTable_reads_columns_exchanged :
    let headers := ["VALUE", "note", "Date"]
    let rows := [["NA", "x", "2020-01-01"], ["1.5", "date", "2020-02-01"]]
    Csv.records "VALUE,note,Date\nNA,x,2020-01-01\n1.5,date,2020-02-01\n".toList = headers :: rows ∧
      2 ≤ headers.length ∧
      ∃ columns, Columns.locate headers = .ok columns ∧ columns.AreOf headers ∧
        ((∃ s, ofTable "x" "VALUE,note,Date\nNA,x,2020-01-01\n1.5,date,2020-02-01\n" = .ok s) ↔
          (∀ record ∈ rows, record.length = headers.length) ∧
          (∀ cell ∈ Csv.column rows columns.value, ∃ value, observationValue cell = .ok value) ∧
          (∀ label ∈ Csv.column rows columns.date, ∃ day, Date.ofLabel? label = some day) ∧
          (Csv.column rows columns.date).Pairwise (· < ·)) ∧
        ∀ s, ofTable "x" "VALUE,note,Date\nNA,x,2020-01-01\n1.5,date,2020-02-01\n" = .ok s →
          s.name = "x" ∧ List.Forall₂ columns.Pairs rows s.observations := by
  intro headers rows
  have hrecords : Csv.records "VALUE,note,Date\nNA,x,2020-01-01\n1.5,date,2020-02-01\n".toList = headers :: rows := by
    decide +kernel
  have hwidth : 2 ≤ headers.length := by decide
  exact ⟨hrecords, hwidth, ofTable_reads_columns hrecords hwidth⟩

/-- Without a header `date`, a first column headed `value` is taken for the dates too, and good data are refused. -/
theorem ofTable_of_value_first :
    Columns.locate ["value", "when"] = .ok ⟨0, 0⟩ ∧
      ofTable "x" "value,when\n1,2020-01-01\n" = .error (.series "x" (.invalidDate "1")) := by
  have hrecords : Csv.records "value,when\n1,2020-01-01\n".toList = [["value", "when"], ["1", "2020-01-01"]] := by
    decide +kernel
  have hcolumns : Columns.locate ["value", "when"] = .ok ⟨0, 0⟩ := by
    simp only [Columns.locate, Text.sameLetters_eq]
    decide
  refine ⟨hcolumns, ?_⟩
  simp only [ofTable, hrecords, hcolumns]
  decide +kernel

end Series

end SeriesFormula
