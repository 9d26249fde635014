import Mathlib.Data.List.Nodup
import SeriesFormula.Source.Folder

/-!
# Files in folders

`entry.Holds path content` says that a file with a content is at a path; the files of an entry are these
(`Entry.mem_files_iff`). In an entry that is `Proper` no folder has two entries of one name, so that no two files have
the same path (`Entry.nodup_files`) and a name is found iff it is there (`Entry.lookup_eq_some_iff`).
-/

namespace SeriesFormula.Entry

/-- A file with the content is at the path. -/
inductive Holds : Entry → List String → Option String → Prop
  | file (content : Option String) : Holds (.file content) [] content
  | folder {entries : List (String × Entry)} {name : String} {entry : Entry} {path : List String}
      {content : Option String} : (name, entry) ∈ entries → Holds entry path content →
      Holds (.folder entries) (name :: path) content

/-- No folder has two entries of one name. -/
inductive Proper : Entry → Prop
  | file (content : Option String) : Proper (.file content)
  | folder {entries : List (String × Entry)} : (entries.map Prod.fst).Nodup → (∀ e ∈ entries, Proper e.2) →
      Proper (.folder entries)

theorem Proper.nodup {entries : List (String × Entry)} (h : (Entry.folder entries).Proper) :
    (entries.map Prod.fst).Nodup := by
  cases h
  assumption

theorem Proper.entry {entries : List (String × Entry)} (h : (Entry.folder entries).Proper) {e : String × Entry}
    (he : e ∈ entries) : e.2.Proper := by
  cases h with
  | folder _ hentries => exact hentries e he

theorem holds_file_iff {content content' : Option String} {path : List String} :
    (file content).Holds path content' ↔ path = [] ∧ content' = content := by
  constructor
  · rintro ⟨⟩
    exact ⟨rfl, rfl⟩
  · rintro ⟨rfl, rfl⟩
    exact .file _

theorem holds_folder_cons_iff {entries : List (String × Entry)} {name : String} {path : List String}
    {content : Option String} :
    (folder entries).Holds (name :: path) content ↔ ∃ entry, (name, entry) ∈ entries ∧ entry.Holds path content := by
  constructor
  · rintro (_ | ⟨hentry, hpath⟩)
    exact ⟨_, hentry, hpath⟩
  · rintro ⟨entry, hentry, hpath⟩
    exact .folder hentry hpath

/-- The files of a list of entries are those of each, behind its name. -/
theorem filesOfList_eq (entries : List (String × Entry)) :
    filesOfList entries = entries.flatMap fun e => e.2.files.map fun f => (e.1 :: f.1, f.2) := by
  induction entries with
  | nil => rfl
  | cons e entries ih => rw [filesOfList, ih, List.flatMap_cons]

mutual

/-- **The files of an entry are those that it holds.** -/
theorem mem_files_iff : ∀ {entry : Entry} {path : List String} {content : Option String},
    (path, content) ∈ entry.files ↔ entry.Holds path content
  | .file content', path, content => by
    rw [files, List.mem_singleton, Prod.mk.injEq, holds_file_iff]
  | .folder entries, [], content => by
    rw [files, mem_filesOfList_iff]
    constructor
    · rintro ⟨_, _, _, ⟨⟩, _⟩
    · rintro ⟨⟩
  | .folder entries, name :: path, content => by
    rw [files, mem_filesOfList_iff, holds_folder_cons_iff]
    constructor
    · rintro ⟨_, entry, _, ⟨⟩, hentry, hpath⟩
      exact ⟨entry, hentry, hpath⟩
    · rintro ⟨entry, hentry, hpath⟩
      exact ⟨name, entry, path, rfl, hentry, hpath⟩

theorem mem_filesOfList_iff : ∀ {entries : List (String × Entry)} {path : List String} {content : Option String},
    (path, content) ∈ filesOfList entries ↔
      ∃ name entry rest, path = name :: rest ∧ (name, entry) ∈ entries ∧ entry.Holds rest content
  | [], path, content => by simp [filesOfList]
  | (name, entry) :: entries, path, content => by
    rw [filesOfList, List.mem_append, mem_filesOfList_iff, List.mem_map]
    constructor
    · rintro (⟨⟨rest, _⟩, hrest, ⟨⟩⟩ | ⟨name', entry', rest, hpath, hentry, hrest⟩)
      · exact ⟨name, entry, rest, rfl, List.mem_cons_self, mem_files_iff.1 hrest⟩
      · exact ⟨name', entry', rest, hpath, List.mem_cons_of_mem _ hentry, hrest⟩
    · rintro ⟨name', entry', rest, rfl, hentry, hrest⟩
      rcases List.mem_cons.1 hentry with heq | hentry
      · cases heq
        exact .inl ⟨(rest, content), mem_files_iff.2 hrest, rfl⟩
      · exact .inr ⟨name', entry', rest, rfl, hentry, hrest⟩

end

mutual

/-- **No two files have the same path.** -/
theorem nodup_files : ∀ {entry : Entry}, entry.Proper → (entry.files.map Prod.fst).Nodup
  | .file _, _ => List.nodup_singleton _
  | .folder entries, .folder hnames hentries => nodup_filesOfList entries hnames hentries

theorem nodup_filesOfList : ∀ (entries : List (String × Entry)), (entries.map Prod.fst).Nodup →
    (∀ e ∈ entries, Proper e.2) → ((filesOfList entries).map Prod.fst).Nodup
  | [], _, _ => List.nodup_nil
  | (name, entry) :: entries, hnames, hentries => by
    rw [List.map_cons, List.nodup_cons] at hnames
    have hhead : ((entry.files.map fun f => (name :: f.1, f.2)).map Prod.fst).Nodup := by
      have hpaths := nodup_files (hentries _ List.mem_cons_self)
      rw [List.map_map]
      have hmap : (entry.files.map Prod.fst).map (name :: ·) =
          entry.files.map (Prod.fst ∘ fun f => (name :: f.1, f.2)) := by
        rw [List.map_map]
        rfl
      rw [← hmap]
      exact hpaths.map (List.cons_injective)
    have htail := nodup_filesOfList entries hnames.2 fun e he => hentries e (List.mem_cons_of_mem _ he)
    rw [filesOfList, List.map_append]
    refine hhead.append htail fun path hhead htail => ?_
    -- a path below the first entry starts with a name that no other entry has
    obtain ⟨⟨_, _⟩, hfile, rfl⟩ := List.mem_map.1 hhead
    obtain ⟨⟨path, _⟩, -, ⟨⟩⟩ := List.mem_map.1 hfile
    obtain ⟨⟨_, content⟩, hfile, ⟨⟩⟩ := List.mem_map.1 htail
    obtain ⟨_, other, _, ⟨⟩, hother, -⟩ := mem_filesOfList_iff.1 hfile
    exact hnames.1 (List.mem_map.2 ⟨(name, other), hother, rfl⟩)

end

/-- A name is found iff it is there. -/
theorem lookup_eq_some_iff {entries : List (String × Entry)} (h : (entries.map Prod.fst).Nodup) {name : String}
    {entry : Entry} : entries.lookup name = some entry ↔ (name, entry) ∈ entries := by
  induction entries with
  | nil => simp
  | cons e entries ih =>
    obtain ⟨other, old⟩ := e
    rw [List.map_cons, List.nodup_cons] at h
    by_cases hname : name = other
    · subst hname
      have hne : (name, entry) ∉ entries := fun hmem => h.1 (List.mem_map.2 ⟨_, hmem, rfl⟩)
      simp [hne, eq_comm]
    · have hbeq : (name == other) = false := beq_eq_false_iff_ne.2 hname
      simp [List.lookup_cons, hbeq, hname, ih h.2]

/-- What is behind a name is in the entry that is found. -/
theorem holds_cons_iff_of_lookup {entries : List (String × Entry)} (h : (entries.map Prod.fst).Nodup) {name : String}
    {path : List String} {content : Option String} : (folder entries).Holds (name :: path) content ↔
      ∃ entry, entries.lookup name = some entry ∧ entry.Holds path content := by
  rw [holds_folder_cons_iff]
  simp only [lookup_eq_some_iff h]

/-- A name that is no point and not too long leads to the entry of that name. -/
theorem find_name {around : List Entry} {entries : List (String × Entry)} {name : String} (hself : isSelf name = false)
    (hup : name ≠ "..") (hlength : ¬maxNameLength < name.utf8ByteSize) :
    find around [name] (.folder entries) = (entries.lookup name).elim (.error .missing) .ok := by
  simp only [find, hself, Bool.false_eq_true, ↓reduceIte, hup, hlength]
  cases entries.lookup name <;> rfl

end SeriesFormula.Entry
