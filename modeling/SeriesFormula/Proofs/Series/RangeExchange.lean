import SeriesFormula.Exchange.Decode
import SeriesFormula.Exchange.Encode
import SeriesFormula.Proofs.Calendar.Spelling
import SeriesFormula.Proofs.Json.Form
import SeriesFormula.Proofs.Json.Reader
import SeriesFormula.Proofs.Json.Written
import SeriesFormula.Proofs.Series.Range

/-!
# Ranges from labels and documents

- what is written for a day is read as that day, whatever its year (`Date.ofText?_text`);
- two bounds make a range iff they are not inverted, be they days, labels or parts of a document, and each way to make a
  range refuses inverted bounds and no others as inverted; a range is read back from its document
  (`DateRange.made_iff_ordered`).
-/

namespace SeriesFormula

open Decimal Text Json

/-! ## Days -/

namespace Calendar

theorem isNumber_padded (width n : ℕ) : IsNumber (Date.padded width n).length (Date.padded width n) where
  ne_nil := List.append_ne_nil_of_right_ne_nil _ Nat.toDigits_ne_nil
  length_le := Nat.le_refl _
  digits := List.forall_mem_append.2 ⟨fun _ => isDigit_of_mem_zeros, fun _ => isDigit_of_mem_naturalDigits⟩

theorem isNumber_padded_of_lt {width n : ℕ} (hwidth : 0 < width) (hn : n < 10 ^ width) :
    IsNumber width (Date.padded width n) := by
  have h := isNumber_padded width n
  rwa [(isNumeral_padded hwidth hn).1] at h

/-- What is written for a year spells it. -/
theorem spellsYear_yearChars (year : ℤ) : SpellsYear (Date.yearChars year) year := by
  unfold Date.yearChars
  have hvalue := digitsValue_padded 4 year.natAbs
  split
  · have h := SpellsYear.minus (isNumber_padded 4 year.natAbs)
    rwa [hvalue, show -(year.natAbs : ℤ) = year by omega] at h
  · have habs : (year.natAbs : ℤ) = year := by omega
    split
    · have h := SpellsYear.plus (isNumber_padded 4 year.natAbs)
      rwa [hvalue, habs] at h
    · have h := SpellsYear.unsigned (@isNumber_padded_of_lt 4 year.natAbs (by decide) (by omega))
      rwa [hvalue, habs] at h

end Calendar

/-- **What is written for a day is read as that day**, whatever its year. -/
theorem Date.ofText?_text (date : Date) : Date.ofText? date.text = some date := by
  have hmonth := @Calendar.isNumber_padded_of_lt 2 _ (by decide) (date.month_le.trans_lt (by decide))
  have hday := @Calendar.isNumber_padded_of_lt 2 _ (by decide) (date.day_le.trans_lt (by decide))
  have hnone : Vacant [] := nofun
  have hhyphen : ∀ (cs : List Char) (c : Char) (tail : List Char), '-' :: cs = c :: tail → isDigit c = false := by
    rintro _ _ _ ⟨⟩
    decide
  have hgap : ∀ cs, trimStart ('-' :: cs) = '-' :: cs := fun cs => trimStart_append hnone (by decide)
  have hy := fun cs => Calendar.splitYear_append hnone (Calendar.spellsYear_yearChars date.year) (hhyphen cs)
  have hm := fun cs => Calendar.splitField_append hnone hmonth (hhyphen cs)
  have hd : Calendar.splitField ([] ++ (padded 2 date.day ++ [])) = some (_, []) :=
    Calendar.splitField_append hnone hday nofun
  have hchars : date.text.toList =
      yearChars date.year ++ '-' :: (padded 2 date.month ++ '-' :: padded 2 date.day) := by
    rw [text, String.toList_ofList, chars, List.append_assoc]
    rfl
  rw [digitsValue_padded] at hd
  simp only [digitsValue_padded, List.nil_append, List.append_nil] at hy hm hd
  rw [ofText?, hchars, Calendar.readDate]
  simp only [hy, hm, hd, hgap, Calendar.splitHyphen, Option.bind_eq_bind, Option.bind_some]
  exact dif_pos date.isDay

/-! ## Documents -/

theorem Date.reads_text {n : ℕ} (date : Date) : Date.reader.Reads (.string date.text) n date :=
  (Reader.Reads.text date.text).check (by rw [ofText?_text]; rfl)

theorem Date.isFormal_reader : Date.reader.IsFormal := Reader.isFormal_text.check fun _ => Reader.isFormal_required _

namespace DateRange

/-- The bounds of a range that is being read. -/
def boundsReader : Reader (Option Date × Option Date) :=
  draftReader.check fun draft => return (draft.start.join, draft.stop.join)

theorem reader_eq : reader = boundsReader.check fun (start, stop) => (between start stop).mapError .data := by
  rw [boundsReader, Reader.check_check]
  rfl

theorem isFormal_boundsReader : boundsReader.IsFormal := by
  have hdate := Date.isFormal_reader.optional
  refine (Reader.isFormal_record ?_ _).check fun _ => isFormal_ok _
  rintro field (_ | ⟨_, _ | ⟨_, h⟩⟩)
  · exact hdate.slot _ _ _ _
  · exact hdate.slot _ _ _ _
  · cases h

/-- A bound or none. -/
theorem reads_bound {n : ℕ} (bound : Option Date) :
    Date.reader.optional.Reads (.ofText? (bound.map Date.text)) n bound := by
  cases bound with
  | none => exact Reader.Reads.null
  | some date => exact (date.reads_text).present nofun

/-- The document of two bounds, inverted or not. -/
def boundsToJson (start stop : Option Date) : Json :=
  .object [("start", .ofText? (start.map Date.text)), ("end", .ofText? (stop.map Date.text))]

theorem reads_boundsToJson (start stop : Option Date) :
    boundsReader.Reads (boundsToJson start stop) 1 (start, stop) := by
  refine Reader.Reads.check (x := (⟨some start, some stop⟩ : Draft)) (Reader.Reads.record fun mode hmode => ?_) rfl
  rw [Reader.foldlM_readMember_cons rfl (Reader.read_slot rfl (reads_bound start) hmode),
    Reader.foldlM_readMember_cons rfl (Reader.read_slot rfl (reads_bound stop) hmode)]
  rfl

/-! ## Ways to make a range -/

theorem between_eq_ok_iff_ordered {start stop : Option Date} {range : DateRange} :
    between start stop = .ok range ↔ Ordered start stop ∧ range.start = start ∧ range.stop = stop := by
  rw [between_eq_ok_iff]
  constructor
  · rintro ⟨rfl, rfl⟩
    exact ⟨range.ordered, rfl, rfl⟩
  · exact And.right

/-- A label that is given is a date, or is refused as none. -/
theorem mapM_observationDate_cases (label : Option String) :
    (∃ bound, label.mapM observationDate = .ok bound) ∨
      ∃ l, label.mapM observationDate = .error (.invalidDate l) := by
  cases label with
  | none => exact .inl ⟨none, rfl⟩
  | some l =>
    have hl : (some l).mapM observationDate = some <$> observationDate l := rfl
    rw [hl, observationDate]
    cases Date.ofLabel? l with
    | none => exact .inr ⟨l, rfl⟩
    | some date => exact .inl ⟨some date, rfl⟩

/-- Labels make a range iff they are dates that do. -/
theorem ofLabels_eq_ok_iff {start stop : Option String} {range : DateRange} : ofLabels start stop = .ok range ↔
    Ordered range.start range.stop ∧ start.mapM observationDate = .ok range.start ∧
      stop.mapM observationDate = .ok range.stop := by
  simp only [ofLabels, bind_eq_ok_iff, between_eq_ok_iff]
  constructor
  · rintro ⟨_, hstart, _, hstop, rfl, rfl⟩
    exact ⟨range.ordered, hstart, hstop⟩
  · rintro ⟨-, hstart, hstop⟩
    exact ⟨_, hstart, _, hstop, rfl, rfl⟩

/-- Labels are refused as inverted iff they are dates that are. -/
theorem ofLabels_eq_inverted_iff {start stop : Option String} {a b : Date} :
    ofLabels start stop = .error (.invertedRange a b) ↔ b < a ∧
      start.mapM observationDate = .ok (some a) ∧ stop.mapM observationDate = .ok (some b) := by
  rw [ofLabels]
  rcases mapM_observationDate_cases start with ⟨x, hx⟩ | ⟨l, hl⟩
  · rcases mapM_observationDate_cases stop with ⟨y, hy⟩ | ⟨l, hl⟩
    · rw [hx, hy, Except.ok.injEq, Except.ok.injEq]
      change between x y = _ ↔ _
      rw [between_eq_error_iff]
      constructor
      · rintro ⟨_, _, rfl, rfl, hlt, ⟨⟩⟩
        exact ⟨hlt, rfl, rfl⟩
      · rintro ⟨hlt, rfl, rfl⟩
        exact ⟨a, b, rfl, rfl, hlt, rfl⟩
    · rw [hx, hl]
      exact iff_of_false nofun fun h => by cases h.2.2
  · rw [hl]
    exact iff_of_false nofun fun h => by cases h.2.1

/-- A document makes a range iff its bounds do. -/
theorem run_eq_ok_iff {text : String} {range : DateRange} : reader.run text = .ok range ↔
    Ordered range.start range.stop ∧ boundsReader.run text = .ok (range.start, range.stop) := by
  simp only [reader_eq, Reader.run_check_eq_ok_iff, Prod.exists, mapError_eq_ok_iff, between_eq_ok_iff]
  constructor
  · rintro ⟨_, _, hbounds, rfl, rfl⟩
    exact ⟨range.ordered, hbounds⟩
  · rintro ⟨-, hbounds⟩
    exact ⟨_, _, hbounds, rfl, rfl⟩

/-- A document is refused for its data iff its bounds are inverted, whatever stands behind it. -/
theorem run_eq_data_iff {text : String} {error : DataError} : reader.run text = .error (.data error) ↔
    ∃ a b, b < a ∧ boundsReader ⟨maxLevels, false⟩ (read text.toList).root = .ok (some a, some b) ∧
      error = .invertedRange a b := by
  rw [reader_eq, Reader.run_eq, Reader.check]
  cases hbounds : boundsReader ⟨maxLevels, false⟩ (read text.toList).root with
  | error e =>
    refine iff_of_false (fun h => ?_) ?_
    · cases h
      exact isFormal_boundsReader _ _ _ hbounds
    · rintro ⟨_, _, -, h, -⟩
      cases h
  | ok bounds =>
    obtain ⟨x, y⟩ := bounds
    cases hbetween : between x y with
    | ok range =>
      -- what stands behind a range is no error in the data
      refine iff_of_false (fun h => ?_) ?_
      · simp only [bind, Except.bind, hbetween, Except.mapError] at h
        split at h <;> cases h
      · rintro ⟨a, b, hlt, ⟨⟩, -⟩
        obtain ⟨hordered, -⟩ := between_eq_ok_iff_ordered.1 hbetween
        exact absurd (hordered a rfl b rfl) (not_le_of_gt hlt)
    | error e =>
      obtain ⟨a, b, rfl, rfl, hlt, rfl⟩ := between_eq_error_iff.1 hbetween
      simp only [bind, Except.bind, hbetween, Except.mapError]
      constructor
      · rintro ⟨⟩
        exact ⟨a, b, hlt, rfl, rfl⟩
      · rintro ⟨_, _, -, ⟨⟩, rfl⟩
        rfl

/-- **Two bounds make a range iff they are not inverted**, be they days, labels or parts of a document, and inverted
bounds, and no others, are refused as inverted. What is written for bounds is read as them, so that a range is read back
from its document, whatever its years. -/
theorem made_iff_ordered :
    (∀ start stop,
      (∀ range, between start stop = .ok range ↔ Ordered start stop ∧ range.start = start ∧ range.stop = stop) ∧
      ∀ error, between start stop = .error error ↔
        ∃ a b, start = some a ∧ stop = some b ∧ b < a ∧ error = .invertedRange a b) ∧
    (∀ start stop,
      (∀ range, ofLabels start stop = .ok range ↔ Ordered range.start range.stop ∧
        start.mapM observationDate = .ok range.start ∧ stop.mapM observationDate = .ok range.stop) ∧
      ∀ a b, ofLabels start stop = .error (.invertedRange a b) ↔ b < a ∧
        start.mapM observationDate = .ok (some a) ∧ stop.mapM observationDate = .ok (some b)) ∧
    (unbounded.start = none ∧ unbounded.stop = none) ∧
    (∀ text,
      (∀ range, reader.run text = .ok range ↔
        Ordered range.start range.stop ∧ boundsReader.run text = .ok (range.start, range.stop)) ∧
      ∀ error, reader.run text = .error (.data error) ↔
        ∃ a b, b < a ∧ boundsReader ⟨maxLevels, false⟩ (read text.toList).root = .ok (some a, some b) ∧
          error = .invertedRange a b) ∧
    (∀ start stop, reader.run (boundsToJson start stop).compact = (between start stop).mapError .data) ∧
    ∀ range : DateRange, reader.run range.toJson.compact = .ok range ∧ reader.run range.toJson.indented = .ok range := by
  have hwritten : ∀ start stop, reader.Gives (boundsToJson start stop) 1 ((between start stop).mapError .data) :=
    fun start stop => reader_eq ▸ Reader.Gives.check (reads_boundsToJson start stop) _
  have hread : ∀ range : DateRange, reader.Reads range.toJson 1 range := fun range mode hmode => by
    have hrange := between_eq_ok_iff.2 ⟨@rfl _ range.start, @rfl _ range.stop⟩
    exact (hwritten range.start range.stop mode hmode).trans (by rw [hrange]; rfl)
  refine ⟨fun start stop => ⟨fun range => between_eq_ok_iff_ordered, fun error => between_eq_error_iff⟩,
    fun start stop => ⟨fun range => ofLabels_eq_ok_iff, fun a b => ofLabels_eq_inverted_iff⟩, ⟨rfl, rfl⟩,
    fun text => ⟨fun range => run_eq_ok_iff, fun error => run_eq_data_iff⟩, fun start stop => ?_, fun range => ?_⟩
  · rw [run_compact]
    exact hwritten start stop _ (.inr (by decide))
  · exact ⟨(hread range).run (by decide), Reader.Gives.run_indented (hread range) (by decide)⟩

end DateRange

end SeriesFormula
