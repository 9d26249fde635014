import SeriesFormula.Csv.Record
import SeriesFormula.Proofs.Text.Blank

/-!
# Written records read back

- the reader takes a written field in without leaving it, quoted (`foldl_quoted`) or not (`foldl_bare`), whatever
  characters are in it (`exists_foldl_fieldChars`);
- a comma then ends the field and a line end the record, so that one written record adds one record
  (`foldl_recordChars`), and a text of written rows holds these rows (`records_rowsChars`);
- the fields that are read are trimmed (`trimmed_getD`).
-/

namespace SeriesFormula.Csv

variable {rs : List (List (List Char))} {fs : List (List Char)}

/-! ## One field -/

/-- Characters that need no quotes stay in the field. -/
theorem foldl_bare {cs : List Char} (h : ∀ c ∈ cs, needsQuotes c = false) (acc : List Char) :
    cs.foldl State.next ⟨.bare, rs, fs, acc⟩ = ⟨.bare, rs, fs, cs.reverse ++ acc⟩ := by
  induction cs generalizing acc with
  | nil => rfl
  | cons c cs ih =>
    obtain ⟨hc, hcs⟩ := List.forall_mem_cons.1 h
    simp only [needsQuotes, Bool.or_eq_false_iff, beq_eq_false_iff_ne] at hc
    have hstep : State.next ⟨.bare, rs, fs, acc⟩ c = ⟨.bare, rs, fs, c :: acc⟩ := by
      simp [State.next, State.unquoted, State.add, hc]
    rw [List.foldl_cons, hstep, ih hcs, List.reverse_cons, List.append_assoc, List.singleton_append]

/-- In quotes all characters stay in the field, quotes being doubled. -/
theorem foldl_quoted (cs acc : List Char) :
    (cs.flatMap fun c => if c = '"' then ['"', '"'] else [c]).foldl State.next ⟨.quoted, rs, fs, acc⟩ =
      ⟨.quoted, rs, fs, cs.reverse ++ acc⟩ := by
  induction cs generalizing acc with
  | nil => rfl
  | cons c cs ih =>
    have hstep : (if c = '"' then ['"', '"'] else [c]).foldl State.next ⟨.quoted, rs, fs, acc⟩ =
        ⟨.quoted, rs, fs, c :: acc⟩ := by
      by_cases hc : c = '"'
      · subst hc; rfl
      · simp [hc, State.next, State.add]
    rw [List.flatMap_cons, List.foldl_append, hstep, ih, List.reverse_cons, List.append_assoc, List.singleton_append]

/-- **A written field is taken in whole.** Behind it the reader is not in quotes, and at the start of a record only
if it was there before. -/
theorem exists_foldl_fieldChars {place : Place} (hplace : place = .record ∨ place = .field)
    (rs : List (List (List Char))) (fs : List (List Char)) (cs : List Char) :
    ∃ behind, behind ≠ .quoted ∧ (behind = .record → place = .record) ∧
      (fieldChars cs).foldl State.next ⟨place, rs, fs, []⟩ = ⟨behind, rs, fs, cs.reverse⟩ := by
  unfold fieldChars
  split
  next hquotes =>
    have hopen : State.next ⟨place, rs, fs, []⟩ '"' = ⟨.quoted, rs, fs, []⟩ := by
      rcases hplace with rfl | rfl <;> rfl
    refine ⟨.quote, nofun, nofun, ?_⟩
    rw [List.cons_append, List.foldl_cons, hopen, List.foldl_append, foldl_quoted, List.append_nil]
    rfl
  next hquotes =>
    have hbare : ∀ c ∈ cs, needsQuotes c = false := by simpa using hquotes
    cases cs with
    | nil =>
      -- an empty field leaves no trace, and the reader stays where it is
      exact ⟨place, by rcases hplace with rfl | rfl <;> simp, id, rfl⟩
    | cons c cs =>
      obtain ⟨hc, hcs⟩ := List.forall_mem_cons.1 hbare
      simp only [needsQuotes, Bool.or_eq_false_iff, beq_eq_false_iff_ne] at hc
      have hfirst : State.next ⟨place, rs, fs, []⟩ c = ⟨.bare, rs, fs, [c]⟩ := by
        rcases hplace with rfl | rfl <;> simp [State.next, State.unquoted, State.add, hc]
      refine ⟨.bare, nofun, nofun, ?_⟩
      rw [List.foldl_cons, hfirst, foldl_bare hcs, List.reverse_cons]

/-! ## Records -/

/-- A comma ends a field outside of quotes. -/
theorem next_comma {st : State} (h : st.place ≠ .quoted) : st.next ',' = st.endField := by
  obtain ⟨place, rs, fs, cs⟩ := st
  cases place with
  | quoted => exact absurd rfl h
  | _ => rfl

/-- A line end outside of quotes ends a record that has begun. -/
theorem next_newline {st : State} (h : st.place ≠ .quoted) (hbegun : st.place ≠ .record) :
    st.next '\n' = st.endRecord := by
  obtain ⟨place, rs, fs, cs⟩ := st
  cases place with
  | record => exact absurd rfl hbegun
  | quoted => exact absurd rfl h
  | _ => rfl

/-- A written record adds one record. -/
theorem foldl_recordChars (a b : List Char) :
    (recordChars a b).foldl State.next ⟨.record, rs, [], []⟩ = ⟨.record, [a, b] :: rs, [], []⟩ := by
  obtain ⟨p, hp, -, ha⟩ := exists_foldl_fieldChars (.inl rfl) rs [] a
  obtain ⟨q, hq, hbegun, hb⟩ := exists_foldl_fieldChars (.inr rfl) rs [a] b
  have hcomma : State.next ⟨p, rs, [], a.reverse⟩ ',' = ⟨.field, rs, [a], []⟩ := by
    rw [next_comma hp, State.endField, List.reverse_reverse]
  have hline : State.next ⟨q, rs, [a], b.reverse⟩ '\n' = ⟨.record, [a, b] :: rs, [], []⟩ := by
    rw [next_newline hq fun h => nomatch hbegun h]
    simp [State.endRecord, State.endField]
  rw [recordChars, List.append_assoc, List.foldl_append, ha, List.cons_append, List.foldl_cons, hcomma,
    List.foldl_append, hb, List.foldl_cons, hline, List.foldl_nil]

/-- The text of rows of two fields. -/
def rowsChars (rows : List (List Char × List Char)) : List Char := rows.flatMap fun row => recordChars row.1 row.2

/-- Written rows add one record each. -/
theorem foldl_rowsChars (rows : List (List Char × List Char)) :
    (rowsChars rows).foldl State.next ⟨.record, rs, [], []⟩ =
      ⟨.record, (rows.map fun row => [row.1, row.2]).reverse ++ rs, [], []⟩ := by
  induction rows generalizing rs with
  | nil => rfl
  | cons row rows ih =>
    unfold rowsChars at ih ⊢
    rw [List.flatMap_cons, List.foldl_append, foldl_recordChars, ih, List.map_cons, List.reverse_cons,
      List.append_assoc, List.singleton_append]

/-- **A text of written rows holds these rows**, up to blanks at the ends of fields. -/
theorem records_rowsChars {rows : List (List Char × List Char)} (hmark : dropMark (rowsChars rows) = rowsChars rows) :
    records (rowsChars rows) =
      rows.map fun row => [String.ofList (Text.trim row.1), String.ofList (Text.trim row.2)] := by
  rw [records, hmark, State.start, foldl_rowsChars]
  simp [State.finish]

/-- The fields that are read are trimmed. -/
theorem trimmed_getD {cs : List Char} {record : List String} (h : record ∈ records cs) (column : Nat) :
    Text.trimmed (record.getD column "") = record.getD column "" := by
  obtain ⟨fields, -, rfl⟩ := List.mem_map.1 h
  rw [List.getD_eq_getElem?_getD, List.getElem?_map]
  cases fields[column]? with
  | none => rfl
  | some chars => simp [Text.trimmed, Text.trim_trim]

end SeriesFormula.Csv
