import SeriesFormula.Proofs.Json.Written
import SeriesFormula.Proofs.Series.Alignment
import SeriesFormula.Proofs.Source.Table
import SeriesFormula.Source.Document

/-!
# Series as documents

A series has two JSON forms: its observations, each with its label and its value (`Series.document`), and its two
columns with its name (`Series.toJson`). Both are read back if the values that are there are finite, whatever the name
and the labels are (`Series.run_compact_of_isFinite`).
-/

namespace SeriesFormula

open Json

/-- An observation with a finite value or none is read back. -/
theorem Observation.reads_toJson {o : Observation Float} (h : o.IsFinite) : Observation.reader.Reads o.toJson 1 o :=
  ((Reader.Reads.text o.date).pair (Reader.Reads.ofOption h)).check rfl

theorem DateIndex.reads_toJson (index : DateIndex) : DateIndex.reader.Reads index.toJson 2 index := by
  have hlabels : Reader.text.list.Reads (.array (index.labels.map .string)) 1 index.labels :=
    Reader.Reads.list_map fun label _ => Reader.Reads.text label
  exact hlabels.single.check rfl

namespace Series

section

variable {s : Series Float} (h : ∀ o ∈ s.observations, o.IsFinite)
include h

/-- The observations of a series are read back. -/
theorem reads_observationsToJson : (Reader.list Observation.reader).Reads s.observationsToJson 2 s.observations :=
  Reader.Reads.list_map fun o ho => Observation.reads_toJson (h o ho)

/-- The columns of a series are read back. -/
theorem reads_toJson : Series.reader.Reads s.toJson 3 s := by
  have hvalues : Reader.number.optional.list.Reads (.array (s.values.map .ofOption)) 2 s.values := by
    refine Reader.Reads.list_map fun x hx => Reader.Reads.ofOption ?_
    obtain ⟨o, ho, rfl⟩ := List.mem_map.1 hx
    exact h o ho
  refine Reader.Reads.check (x := (⟨some s.name, some s.index, some s.values⟩ : Draft))
    (Reader.Reads.record fun mode hmode => ?_) ?_
  · rw [Reader.foldlM_readMember_cons rfl (Reader.read_slot rfl (Reader.Reads.text s.name) hmode),
      Reader.foldlM_readMember_cons rfl (Reader.read_slot rfl s.index.reads_toJson hmode),
      Reader.foldlM_readMember_cons rfl (Reader.read_slot rfl hvalues hmode)]
    rfl
  · show (ofColumns s.name s.index s.values).mapError ReadError.data = .ok s
    rw [ofColumns_columns]
    rfl

/-- **A series with finite values is read back from its JSON forms**: from its columns, and from its observations, which
are also its form as a value. If its labels are accepted, the document of its observations is read as the series. -/
theorem run_compact_of_isFinite :
    Series.reader.run s.toJson.compact = .ok s ∧
    (Reader.list Observation.reader).run s.document = .ok s.observations ∧
    (s.validate = .ok () → ofDocument s.name s.document = .ok s) ∧
    (Value.series s).toJson.compact = s.document := by
  have hrun := (reads_observationsToJson h).run (by decide)
  refine ⟨(reads_toJson h).run (by decide), hrun, fun hvalid => ?_, rfl⟩
  rw [ofDocument, document, hrun]
  exact validated_eq_ok_iff.2 ⟨rfl, hvalid⟩

end

/-- A name and a label with characters that are escaped, a negative zero, the least positive number and none. -/
theorem run_compact_of_isFinite_escaped :
    let s : Series Float :=
      ⟨"\"\\\x01é", [⟨"2020-1-\n 1", some (-0.0)⟩, ⟨"2020-12-01", some 5e-324⟩, ⟨"2020-12-02", none⟩]⟩
    (∀ o ∈ s.observations, o.IsFinite) ∧ s.validate = .ok () ∧
      Series.reader.run s.toJson.compact = .ok s ∧
      (Reader.list Observation.reader).run s.document = .ok s.observations ∧
      ofDocument s.name s.document = .ok s ∧
      (Value.series s).toJson.compact = s.document := by
  intro s
  have hnumbers : ∀ x ∈ [-0.0, 5e-324], Decimal.isFinite (x : Float) := by decide +kernel
  have hfinite : ∀ o ∈ s.observations, o.IsFinite := by simpa [s, Observation.IsFinite] using hnumbers
  have hvalid : s.validate = .ok () := by decide +kernel
  obtain ⟨hcolumns, hobservations, hdocument, hvalue⟩ := run_compact_of_isFinite hfinite
  exact ⟨hfinite, hvalid, hcolumns, hobservations, hdocument hvalid, hvalue⟩

end Series

end SeriesFormula
