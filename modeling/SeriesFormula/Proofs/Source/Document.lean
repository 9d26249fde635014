import SeriesFormula.Proofs.Formula.Context
import SeriesFormula.Proofs.Json.Reader
import SeriesFormula.Proofs.Source.Table
import SeriesFormula.Source.Document

/-!
# Series of documents

A series of a document is sound (`Series.of_ofDocument`), but its labels are kept as they stand. So it reads back from
its table iff no label has blanks at the ends (`Series.ofTable_table_of_ofDocument`), and with blanks it may be
refused there, because trimming makes two labels one (`Series.ofTable_table_of_final_blank`).

A document of many series gives under an identifier the observations of the last of its names, in the order of the
names, that have the letters of the identifier (`Context.get?_of_ofDocument`); the identifiers are the names in small
letters (`Context.exists_get?_of_ofDocument`).
-/

namespace SeriesFormula

/-- The values of observations in documents are finite. -/
theorem Observation.yields_reader : Observation.reader.Yields Observation.IsFinite := by
  refine ((Json.Reader.Yields.trivial .text).pair (Json.Reader.Yields.optional .number)).check ?_
  rintro ⟨date, value⟩ o ⟨-, hvalue⟩ ho
  cases ho
  exact hvalue

namespace Series

/-- **A series from a document is sound.** -/
theorem of_ofDocument {name text : String} {s : Series Float} (h : ofDocument name text = .ok s) :
    s.name = name ∧ s.IsSound := by
  simp only [ofDocument, bind_eq_ok_iff, mapError_eq_ok_iff, validated_eq_ok_iff] at h
  obtain ⟨observations, hrun, rfl, hvalid⟩ := h
  exact ⟨rfl, hvalid, Observation.yields_reader.list.run hrun⟩

/-- **A series from a document reads back from its table iff no label has blanks at its ends.** -/
theorem ofTable_table_of_ofDocument {name text : String} {s : Series Float} (h : ofDocument name text = .ok s) :
    ofTable name s.table = .ok s ↔ s.IsTrimmed := by
  obtain ⟨rfl, hsound⟩ := of_ofDocument h
  exact ofTable_table_iff hsound

/-- A value and a missing one. -/
theorem ofTable_table_of_ofDocument_missing :
    ofDocument "x" "[[\"2020-01-01\", 1.5], [\"2020-02-01\", null]]" =
        .ok ⟨"x", [⟨"2020-01-01", some 1.5⟩, ⟨"2020-02-01", none⟩]⟩ ∧
      (ofTable "x" (table ⟨"x", [⟨"2020-01-01", some 1.5⟩, ⟨"2020-02-01", none⟩]⟩) =
          .ok ⟨"x", [⟨"2020-01-01", some 1.5⟩, ⟨"2020-02-01", none⟩]⟩ ↔
        IsTrimmed ⟨"x", [⟨"2020-01-01", some 1.5⟩, ⟨"2020-02-01", none⟩]⟩) := by
  have h : ofDocument "x" "[[\"2020-01-01\", 1.5], [\"2020-02-01\", null]]" =
      .ok ⟨"x", [⟨"2020-01-01", some 1.5⟩, ⟨"2020-02-01", none⟩]⟩ := by decide +kernel
  exact ⟨h, ofTable_table_of_ofDocument h⟩

/-- Two labels that differ by a final blank are one day, and the table of such a series is refused. -/
theorem ofTable_table_of_final_blank :
    ofDocument "x" "[[\"2020-01-01\", 1], [\"2020-01-01 \", 2]]" =
        .ok ⟨"x", [⟨"2020-01-01", some 1⟩, ⟨"2020-01-01 ", some 2⟩]⟩ ∧
      ofTable "x" (table ⟨"x", [⟨"2020-01-01", some 1⟩, ⟨"2020-01-01 ", some 2⟩]⟩) =
        .error (.series "x" (.notAscending 1 "2020-01-01" "2020-01-01")) := by
  refine ⟨by decide +kernel, ?_⟩
  have hfinite : ∀ x ∈ [1, 2], Decimal.isFinite (x : Float) := by decide +kernel
  rw [ofTable_table_of_isFinite (by simpa [Observation.IsFinite] using hfinite)]
  decide +kernel

end Series

/-! ## Documents of many series -/

namespace Context

/-- The entries of a document are its names in small letters with the series of their observations, if the labels of all
are accepted. -/
theorem ofDocument_eq_ok_iff {text : String} {found : Context Float} : ofDocument text = .ok found ↔
    ∃ map, ObservationMap.reader.run text = .ok map ∧
      (∀ entry ∈ map.toList, (Series.mk (Text.lower entry.1) entry.2).validate = .ok ()) ∧
      found = ofList (map.toList.map fun entry => (Text.lower entry.1, ⟨Text.lower entry.1, entry.2⟩)) := by
  have hentries := @mapM_eq_ok_iff_map SourceError (String × List (Observation Float)) (String × Series Float)
    (fun entry => Series.validated (Text.lower entry.1) entry.2 >>= fun s => .ok (Text.lower entry.1, s))
    (fun entry => (Text.lower entry.1, ⟨Text.lower entry.1, entry.2⟩))
    (fun entry => (Series.mk (Text.lower entry.1) entry.2).validate = .ok ()) ?entry
  case entry =>
    rintro ⟨name, observations⟩ ⟨id, s⟩
    simp only [bind_eq_ok_iff, Series.validated_eq_ok_iff, Except.ok.injEq, Prod.mk.injEq]
    constructor
    · rintro ⟨t, ⟨rfl, hvalid⟩, rfl, rfl⟩
      exact ⟨⟨rfl, rfl⟩, hvalid⟩
    · rintro ⟨⟨rfl, rfl⟩, hvalid⟩
      exact ⟨_, ⟨rfl, hvalid⟩, rfl, rfl⟩
  simp only [ofDocument, bind_eq_ok_iff, mapError_eq_ok_iff]
  constructor
  · rintro ⟨map, hmap, entries, hmapM, hfound⟩
    cases hfound
    obtain ⟨rfl, hvalid⟩ := hentries.1 hmapM
    exact ⟨map, hmap, hvalid, rfl⟩
  · rintro ⟨map, hmap, hvalid, rfl⟩
    exact ⟨map, hmap, _, hentries.2 ⟨rfl, hvalid⟩, rfl⟩

/-- **The series of a document** are those of its observations, all of them accepted, each named by its identifier in
small letters. Of names that differ in case only, the last one counts. -/
theorem get?_of_ofDocument {text : String} {found : Context Float} (h : ofDocument text = .ok found) :
    ∃ map, ObservationMap.reader.run text = .ok map ∧
      (∀ entry ∈ map.toList, (Series.mk (Text.lower entry.1) entry.2).validate = .ok ()) ∧
      ∀ id, found.get? id = map.toList.reverse.findSome? fun entry =>
        if Text.lower entry.1 = id then some ⟨id, entry.2⟩ else none := by
  obtain ⟨map, hmap, hvalid, rfl⟩ := ofDocument_eq_ok_iff.1 h
  refine ⟨map, hmap, hvalid, fun id => ?_⟩
  rw [get?_ofList, ← List.map_reverse, List.findSome?_map]
  congr 1
  funext entry
  simp only [Function.comp_apply, supplied?, Text.lower_lower]
  split
  · rename_i hid
    rw [hid]
  · rfl

variable {text : String} {found : Context Float} {id : String}

/-- A series of a document is named by its identifier, which is in small letters, and its labels are accepted. -/
theorem of_ofDocument {s : Series Float} (h : ofDocument text = .ok found) (hs : found.get? id = some s) :
    Text.lower id = id ∧ s.name = id ∧ s.validate = .ok () := by
  obtain ⟨map, -, hvalid, hget⟩ := get?_of_ofDocument h
  rw [hget] at hs
  obtain ⟨entry, hm, hs⟩ := List.exists_of_findSome?_eq_some hs
  obtain ⟨rfl, hs⟩ := Option.ite_none_right_eq_some.1 hs
  cases hs
  exact ⟨Text.lower_lower entry.1, rfl, hvalid entry (List.mem_reverse.1 hm)⟩

/-- The identifiers of a document are its names in small letters. -/
theorem exists_get?_of_ofDocument {map : ObservationMap} (h : ofDocument text = .ok found)
    (hmap : ObservationMap.reader.run text = .ok map) :
    (∃ s, found.get? id = some s) ↔ ∃ name ∈ map.keys, Text.lower name = id := by
  obtain ⟨_, hmap', -, hget⟩ := get?_of_ofDocument h
  cases hmap'.symm.trans hmap
  rw [hget, ← Option.isSome_iff_exists, List.findSome?_isSome_iff]
  constructor
  · rintro ⟨entry, hm, hsome⟩
    have hname : Text.lower entry.1 = id := by
      by_contra hne
      rw [if_neg hne] at hsome
      cases hsome
    refine ⟨entry.1, ?_, hname⟩
    rw [← Std.TreeMap.map_fst_toList_eq_keys]
    exact List.mem_map_of_mem (List.mem_reverse.1 hm)
  · rintro ⟨name, hm, hname⟩
    rw [← Std.TreeMap.map_fst_toList_eq_keys] at hm
    obtain ⟨entry, hentry, rfl⟩ := List.mem_map.1 hm
    exact ⟨entry, List.mem_reverse.2 hentry, by rw [if_pos hname, Option.isSome_some]⟩

end Context

end SeriesFormula
