import SeriesFormula.Proofs.Formula.Context
import SeriesFormula.Proofs.Series.Validation
import SeriesFormula.Proofs.Source.Document
import SeriesFormula.Source.Load

/-!
# What is loaded

Sources are loaded step by step, each file after the one before. What comes out is said here without steps:

- loading fails iff a file is at fault: it cannot be read, or its reader refuses it (`Sources.Fault`,
  `Sources.exists_load_eq_error_iff`);
- otherwise the series under an identifier is that of the last table for it, or else that of the last document that has
  one, cut to the range (`Sources.series?`, `Sources.get?_load`);
- so each series is named by its identifier, its labels are accepted, and the range takes them all
  (`Sources.load_last_wins`).
-/

namespace SeriesFormula

/-- The series of a document by their identifiers. -/
def Files.document (files : Files) (path : String) : Except SourceError (Context Float) := do
  let text ← (files path).mapError .file
  Context.ofDocument text

/-- The series of a table, which is named by its identifier in small letters. -/
def Files.table (files : Files) (entry : String × String) : Except SourceError (Series Float) := do
  let text ← (files entry.2).mapError .file
  Series.ofTable (Text.lower entry.1) text

namespace Sources

variable (sources : Sources) (files : Files)

/-- A file cannot be read, or its reader refuses it. -/
inductive Fault : Prop
  | unreadable {path : String} {error : FileError} : path ∈ sources.paths → files path = .error error → Fault
  | document {path text : String} {error : SourceError} : path ∈ sources.documents → files path = .ok text →
      Context.ofDocument text = .error error → Fault
  | table {id path text : String} {error : SourceError} : (id, path) ∈ sources.tables → files path = .ok text →
      Series.ofTable (Text.lower id) text = .error error → Fault

/-- A table or a document has a series under a name, in letters of any case. -/
inductive HasName : String → Prop
  | document {path text name : String} {map : ObservationMap} : path ∈ sources.documents → files path = .ok text →
      ObservationMap.reader.run text = .ok map → name ∈ map.keys → HasName name
  | table {id path : String} : (id, path) ∈ sources.tables → HasName id

/-- The series under an identifier in small letters before it is cut: that of the last table for it if there is one,
otherwise that of the last document that has one. -/
def series? (id : String) : Option (Series Float) :=
  match sources.tables.reverse.find? fun entry => Text.lower entry.1 = id with
  | some entry => (files.table entry).toOption
  | none => sources.documents.reverse.findSome? fun path => (files.document path).toOption.bind (·.get? id)

/-! ## One file -/

variable {sources files}

/-- A document is read, and its series are added. -/
theorem addDocument_eq (context : Context Float) (path : String) :
    sources.addDocument files context path = (files.document path).map fun found =>
      found.toList.foldl (fun context entry => context.insert entry.1 (entry.2.within sources.range)) context := by
  rw [addDocument, Files.document]
  cases (files path).mapError SourceError.file with
  | error error => rfl
  | ok text =>
    show (Context.ofDocument text >>= _) = (Context.ofDocument text).map _
    cases Context.ofDocument text <;> rfl

/-- A table is read, and its series is added. -/
theorem addTable_eq (context : Context Float) (entry : String × String) :
    sources.addTable files context entry = (files.table entry).map fun s =>
      context.insert entry.1 (s.within sources.range) := by
  rw [addTable, Files.table]
  cases (files entry.2).mapError SourceError.file with
  | error error => rfl
  | ok text =>
    show (Series.ofTable (Text.lower entry.1) text >>= _) = (Series.ofTable (Text.lower entry.1) text).map _
    cases Series.ofTable (Text.lower entry.1) text <;> rfl

/-- The identifiers of a document are in small letters. -/
theorem isLower_of_document {path : String} {found : Context Float} (h : files.document path = .ok found) :
    found.IsLower := by
  simp only [Files.document, Context.ofDocument, bind_eq_ok_iff, pure, Except.pure, Except.ok.injEq] at h
  obtain ⟨text, -, map, -, entries, -, rfl⟩ := h
  exact Context.isLower_ofList entries

/-! ## All files -/

/-- All documents are added iff each gives its series. -/
theorem exists_addDocuments_iff {context : Context Float} {paths : List String} :
    (∃ last, paths.foldlM (sources.addDocument files) context = .ok last) ↔
      ∀ path ∈ paths, ∃ found, files.document path = .ok found :=
  exists_foldlM_eq_ok_iff fun context path => by simp [addDocument_eq, map_eq_ok_iff]

/-- All tables are added iff each gives its series. -/
theorem exists_addTables_iff {context : Context Float} {entries : List (String × String)} :
    (∃ last, entries.foldlM (sources.addTable files) context = .ok last) ↔
      ∀ entry ∈ entries, ∃ s, files.table entry = .ok s :=
  exists_foldlM_eq_ok_iff fun context entry => by simp [addTable_eq, map_eq_ok_iff]

/-- **All is loaded iff each file gives its series.** -/
theorem exists_load_iff : (∃ context, sources.load files = .ok context) ↔
    (∀ path ∈ sources.documents, ∃ found, files.document path = .ok found) ∧
      ∀ entry ∈ sources.tables, ∃ s, files.table entry = .ok s := by
  simp only [load, bind_eq_ok_iff]
  constructor
  · rintro ⟨last, first, hfirst, hlast⟩
    exact ⟨exists_addDocuments_iff.1 ⟨first, hfirst⟩, exists_addTables_iff.1 ⟨last, hlast⟩⟩
  · rintro ⟨hdocuments, htables⟩
    obtain ⟨first, hfirst⟩ := exists_addDocuments_iff.2 hdocuments
    obtain ⟨last, hlast⟩ := exists_addTables_iff.2 htables
    exact ⟨last, first, hfirst, hlast⟩

/-- Of the documents, the last one that has a series under an identifier gives it. -/
theorem get?_addDocuments {last : Context Float}
    (h : sources.documents.foldlM (sources.addDocument files) .empty = .ok last) (id : String) :
    last.get? id = sources.documents.reverse.findSome? fun path =>
      ((files.document path).toOption.bind (·.get? id)).map (·.within sources.range) := by
  rw [Context.get?_foldlM _ ?step h, Context.get?_empty, Option.or_none]
  case step =>
    intro context path next hnext
    rw [addDocument_eq, map_eq_ok_iff] at hnext
    obtain ⟨found, hfound, rfl⟩ := hnext
    rw [Context.get?_foldl_toList (isLower_of_document hfound) (·.within sources.range), hfound]
    rfl

/-- Of the tables, the last one for an identifier gives the series; if there is none, it stays what it was. -/
theorem get?_addTables {first last : Context Float}
    (h : sources.tables.foldlM (sources.addTable files) first = .ok last) (id : String) :
    last.get? id =
      match sources.tables.reverse.find? fun entry => Text.lower entry.1 = id with
      | some entry => (files.table entry).toOption.map (·.within sources.range)
      | none => first.get? id := by
  let supply (entry : String × String) : Option (Series Float) :=
    if Text.lower entry.1 = id then (files.table entry).toOption.map (·.within sources.range) else none
  have hread := exists_addTables_iff.1 ⟨last, h⟩
  rw [Context.get?_foldlM supply ?step h]
  case step =>
    intro context entry next hnext
    rw [addTable_eq, map_eq_ok_iff] at hnext
    obtain ⟨s, hs, rfl⟩ := hnext
    simp only [supply, Context.get?_insert, hs]
    split <;> rfl
  cases hfind : sources.tables.reverse.find? fun entry => decide (Text.lower entry.1 = id) with
  | none =>
    rw [List.findSome?_eq_none_iff.2, Option.none_or]
    intro entry hm
    exact if_neg (by simpa using List.find?_eq_none.1 hfind entry hm)
  | some entry =>
    obtain ⟨hid, before, after, hsplit, hbefore⟩ := List.find?_eq_some_iff_append.1 hfind
    obtain ⟨s, hs⟩ := hread entry (List.mem_reverse.1 (List.mem_of_find?_eq_some hfind))
    have hentry : supply entry = some (s.within sources.range) := by
      simp only [supply, if_pos (of_decide_eq_true hid), hs]
      rfl
    rw [List.findSome?_eq_some_iff.2 ⟨before, entry, after, hsplit, hentry, ?_⟩]
    · dsimp only
      rw [hs]
      rfl
    · intro other hm
      exact if_neg (by simpa using hbefore other hm)

/-- **The last file counts, and tables before documents.** -/
theorem get?_load {context : Context Float} (h : sources.load files = .ok context) (id : String) :
    context.get? id = (sources.series? files id).map (·.within sources.range) := by
  simp only [load, bind_eq_ok_iff] at h
  obtain ⟨first, hfirst, hlast⟩ := h
  rw [get?_addTables hlast, get?_addDocuments hfirst, series?]
  split
  · rfl
  · rw [List.map_findSome?]
    rfl

/-! ## Names and series -/

/-- The series of a table is named by its identifier in small letters, and its labels are accepted. -/
theorem of_table {entry : String × String} {s : Series Float} (h : files.table entry = .ok s) :
    s.name = Text.lower entry.1 ∧ s.validate = .ok () := by
  simp only [Files.table, bind_eq_ok_iff] at h
  obtain ⟨text, -, hs⟩ := h
  obtain ⟨hname, hsound, -⟩ := Series.of_ofTable hs
  exact ⟨hname, hsound.accepted⟩

/-- A document gives its series iff it is read and accepted. -/
theorem document_eq_ok_iff {path : String} {found : Context Float} :
    files.document path = .ok found ↔ ∃ text, files path = .ok text ∧ Context.ofDocument text = .ok found := by
  simp only [Files.document, bind_eq_ok_iff, mapError_eq_ok_iff]

/-- **A series of the sources** is under a name that has its identifier's letters. It is named by the identifier, which is
in small letters, and its labels are accepted. -/
theorem of_series? {id : String} {s : Series Float} (h : sources.series? files id = some s) :
    (∃ name, sources.HasName files name ∧ Text.lower name = id) ∧
      Text.lower id = id ∧ s.name = id ∧ s.validate = .ok () := by
  rw [series?] at h
  split at h
  · rename_i entry hfind
    have hid : Text.lower entry.1 = id := by simpa using List.find?_some hfind
    obtain ⟨hname, hvalid⟩ := of_table (toOption_eq_some_iff.1 h)
    refine ⟨⟨entry.1, .table (List.mem_reverse.1 (List.mem_of_find?_eq_some hfind)), hid⟩, ?_, hname.trans hid, hvalid⟩
    rw [← hid, Text.lower_lower]
  · obtain ⟨path, hm, h⟩ := List.exists_of_findSome?_eq_some h
    obtain ⟨found, hfound, hs⟩ := Option.bind_eq_some_iff.1 h
    obtain ⟨text, htext, hfound⟩ := document_eq_ok_iff.1 (toOption_eq_some_iff.1 hfound)
    obtain ⟨map, hmap, -⟩ := Context.get?_of_ofDocument hfound
    obtain ⟨name, hname, hid⟩ := (Context.exists_get?_of_ofDocument hfound hmap).1 ⟨s, hs⟩
    exact ⟨⟨name, .document (List.mem_reverse.1 hm) htext hmap hname, hid⟩, Context.of_ofDocument hfound hs⟩

/-- Under each name of the sources there is a series, if all files can be read. -/
theorem exists_series? {context : Context Float} (h : sources.load files = .ok context) {name : String}
    (hname : sources.HasName files name) : ∃ s, sources.series? files (Text.lower name) = some s := by
  obtain ⟨hdocuments, htables⟩ := exists_load_iff.1 ⟨context, h⟩
  rw [series?]
  cases hfind : sources.tables.reverse.find? fun entry => decide (Text.lower entry.1 = Text.lower name) with
  | some entry =>
    obtain ⟨s, hs⟩ := htables entry (List.mem_reverse.1 (List.mem_of_find?_eq_some hfind))
    exact ⟨s, toOption_eq_some_iff.2 hs⟩
  | none =>
    cases hname with
    | table hm =>
      have hne := List.find?_eq_none.1 hfind _ (List.mem_reverse.2 hm)
      exact absurd (decide_eq_true rfl) hne
    | @document path text _ map hm htext hmap hkey =>
      obtain ⟨found, hfound⟩ := hdocuments path hm
      obtain ⟨text', htext', hread⟩ := document_eq_ok_iff.1 hfound
      cases htext'.symm.trans htext
      obtain ⟨s, hs⟩ := (Context.exists_get?_of_ofDocument hread hmap).2 ⟨name, hkey, rfl⟩
      rw [← Option.isSome_iff_exists, List.findSome?_isSome_iff]
      refine ⟨path, List.mem_reverse.2 hm, ?_⟩
      rw [toOption_eq_some_iff.2 hfound, Option.bind_some, hs, Option.isSome_some]

/-- A document does not give its series iff it cannot be read or is refused. -/
theorem exists_document_eq_error_iff {path : String} : (∃ error, files.document path = .error error) ↔
    (∃ error, files path = .error error) ∨
      ∃ text error, files path = .ok text ∧ Context.ofDocument text = .error error := by
  simp only [Files.document, exists_bind_eq_error_iff, exists_mapError_eq_error_iff, mapError_eq_ok_iff]

/-- A table does not give its series iff it cannot be read or is refused. -/
theorem exists_table_eq_error_iff {entry : String × String} : (∃ error, files.table entry = .error error) ↔
    (∃ error, files entry.2 = .error error) ∨
      ∃ text error, files entry.2 = .ok text ∧ Series.ofTable (Text.lower entry.1) text = .error error := by
  simp only [Files.table, exists_bind_eq_error_iff, exists_mapError_eq_error_iff, mapError_eq_ok_iff]

/-- **Loading fails iff a file is at fault.** -/
theorem exists_load_eq_error_iff : (∃ error, sources.load files = .error error) ↔ sources.Fault files := by
  rw [exists_eq_error_iff, exists_load_iff, not_and_or]
  simp only [not_forall, ← exists_eq_error_iff, exists_document_eq_error_iff, exists_table_eq_error_iff, exists_prop]
  constructor
  · rintro (⟨path, hm, ⟨error, hfile⟩ | ⟨text, error, hfile, hread⟩⟩ |
      ⟨⟨id, path⟩, hm, ⟨error, hfile⟩ | ⟨text, error, hfile, hread⟩⟩)
    · exact .unreadable (List.mem_append_left _ hm) hfile
    · exact .document hm hfile hread
    · exact .unreadable (List.mem_append_right _ (List.mem_map.2 ⟨_, hm, rfl⟩)) hfile
    · exact .table hm hfile hread
  · rintro (⟨hm, hfile⟩ | ⟨hm, hfile, hread⟩ | ⟨hm, hfile, hread⟩)
    · rcases List.mem_append.1 hm with hm | hm
      · exact .inl ⟨_, hm, .inl ⟨_, hfile⟩⟩
      · obtain ⟨entry, hentry, rfl⟩ := List.mem_map.1 hm
        exact .inr ⟨entry, hentry, .inl ⟨_, hfile⟩⟩
    · exact .inl ⟨_, hm, .inr ⟨_, _, hfile, hread⟩⟩
    · exact .inr ⟨_, hm, .inr ⟨_, _, hfile, hread⟩⟩

/-- The identifiers of what is loaded are the names that occur, in small letters. -/
theorem mem_ids_load_iff {context : Context Float} (h : sources.load files = .ok context) {id : String} :
    id ∈ context.ids ↔ ∃ name, sources.HasName files name ∧ Text.lower name = id := by
  simp only [Context.mem_ids_iff, get?_load h, Option.map_eq_some_iff]
  constructor
  · rintro ⟨_, s, hs, -⟩
    exact (of_series? hs).1
  · rintro ⟨name, hname, rfl⟩
    obtain ⟨s, hs⟩ := exists_series? h hname
    exact ⟨_, s, hs, rfl⟩

/-- A loaded series is named by its identifier, which is in small letters; its labels are accepted and lie in the range. -/
theorem of_get?_load {context : Context Float} (h : sources.load files = .ok context) {id : String} {s : Series Float}
    (hs : context.get? id = some s) :
    Text.lower id = id ∧ s.name = id ∧ s.validate = .ok () ∧
      ∀ o ∈ s.observations, sources.range.contains o.date = true := by
  rw [get?_load h, Option.map_eq_some_iff] at hs
  obtain ⟨whole, hwhole, rfl⟩ := hs
  obtain ⟨-, hlower, hname, hvalid⟩ := of_series? hwhole
  exact ⟨hlower, hname, Series.validate_within hvalid _, fun o ho => (List.mem_filter.1 ho).2⟩

/-- **Loading.** It fails iff a file is at fault. Otherwise the identifiers are the names that occur, in small letters;
the last table for an identifier gives its series, or else the last document that has one, cut to the range; each series
is named by its identifier, with accepted labels in the range. A range without bounds cuts nothing. -/
theorem load_last_wins (sources : Sources) (files : Files) :
    ((∃ error, sources.load files = .error error) ↔ sources.Fault files) ∧
    ∀ context, sources.load files = .ok context →
      (∀ id, id ∈ context.ids ↔ ∃ name, sources.HasName files name ∧ Text.lower name = id) ∧
      (∀ id, context.get? id = (sources.series? files id).map (·.within sources.range)) ∧
      (∀ id s, context.get? id = some s → Text.lower id = id ∧ s.name = id ∧ s.validate = .ok () ∧
        ∀ o ∈ s.observations, sources.range.contains o.date = true) ∧
      (sources.range = .unbounded → ∀ id, context.get? id = sources.series? files id) := by
  refine ⟨exists_load_eq_error_iff, fun context h =>
    ⟨fun id => mem_ids_load_iff h, get?_load h, fun id s => of_get?_load h, fun hrange id => ?_⟩⟩
  rw [get?_load h, hrange]
  cases hs : sources.series? files id with
  | none => rfl
  | some s =>
    obtain ⟨-, -, -, hvalid⟩ := of_series? hs
    rw [Option.map_some, Series.within_unbounded hvalid]

/-- A table replaces a series of a document, and the range cuts the other one. -/
example :
    let files : Files := fun path =>
      if path = "data" then
        .ok "\x7b\"GDP\": [[\"2020-01-01\", 1]], \"CPI\": [[\"2019-12-01\", 5], [\"2020-01-01\", 9]]\x7d"
      else .ok "date,value\n2020-01-01,42\n"
    let sources : Sources :=
      { tables := [("Gdp", "table")], documents := ["data"],
        range := ⟨some ⟨2020, 1, 1, by decide⟩, none, by simp [DateRange.Ordered]⟩ }
    (sources.load files).map (·.toList) =
      .ok [("cpi", ⟨"cpi", [⟨"2020-01-01", some 9⟩]⟩), ("gdp", ⟨"gdp", [⟨"2020-01-01", some 42⟩]⟩)] := by
  decide +kernel

end Sources

end SeriesFormula
