import Mathlib.Data.List.Sort
import SeriesFormula.Fixture.Suite
import SeriesFormula.Proofs.Source.Folder

/-!
# Lists of fixture files

- a name ends in `.json` iff that is its extension, unless it is no more than that (`extension?_eq_json_iff`);
- `Walk` goes through folders with a stack: the top folder is read, in any order of its entries, its files are found if
  they are of fixtures, and its folders are put on the stack. What is found and what is still below the stack stay the
  same in each step (`perm_pending_visit`), so that a walk finds all files below it, whatever the orders are
  (`Walk.perm`), and there is always a walk (`exists_walk`);
- the list of fixture files holds each of them and is ascending by their paths (`Lists`, `lists_of_fixtureFiles`). There
  is only one such list (`Lists.unique`), and what a walk has found is that list once it is sorted
  (`Walk.mergeSort_eq`).
-/

namespace SeriesFormula.Suite

/-- A file: its path and its content. -/
abbrev File := List String × Option String

/-- A folder: its path and its entries. -/
abbrev Folder := List String × List (String × Entry)

/-! ## Names of fixture files -/

/-- Names that end in `.json`, with something before that. -/
def IsFixtureName (name : String) : Prop := ∃ stem, stem ≠ "" ∧ name = stem ++ ".json"

theorem extension?_eq_json_iff {name : String} : extension? name = some "json" ↔ IsFixtureName name := by
  constructor
  · intro h
    unfold extension? at h
    split at h
    · rename_i c rest hbefore
      -- from behind: the letters up to the last point, the point, and at least one letter
      have hbehind : (name.toList.reverse.takeWhile (· ≠ '.')).reverse = "json".toList := by
        rw [← Option.some.inj h, String.toList_ofList]
      have hsplit := congrArg List.reverse (List.takeWhile_append_dropWhile (p := (· ≠ '.')) (l := name.toList.reverse))
      rw [hbefore, List.reverse_append, hbehind, List.reverse_reverse] at hsplit
      refine ⟨String.ofList (c :: rest).reverse, ?_, ?_⟩
      · intro hempty
        have hlist := congrArg String.toList hempty
        simp at hlist
      · apply String.toList_injective
        rw [← hsplit]
        simp
    · cases h
  · rintro ⟨stem, hstem, rfl⟩
    obtain ⟨c, rest, hrest⟩ : ∃ c rest, stem.toList.reverse = c :: rest := by
      refine List.exists_cons_of_ne_nil fun hnil => hstem ?_
      rwa [List.reverse_eq_nil_iff, String.toList_eq_nil_iff] at hnil
    have hreverse : (stem ++ ".json").toList.reverse = 'n' :: 'o' :: 's' :: 'j' :: '.' :: c :: rest := by
      rw [String.toList_append, List.reverse_append, hrest]
      rfl
    rw [extension?, hreverse]
    rfl

/-- The last name of a path ends in `.json`. -/
def isFixture (file : File) : Bool := file.1.getLast?.bind extension? == some "json"

/-! ## Walks -/

/-- The file of an entry in a folder, if it is of a fixture. -/
def file? (path : List String) : String × Entry → Option File
  | (name, .file content) => if extension? name == some "json" then some (path ++ [name], content) else none
  | (_, .folder _) => none

/-- The folder of an entry in a folder, if it is one. -/
def folder? (path : List String) : String × Entry → Option Folder
  | (_, .file _) => none
  | (name, .folder entries) => some (path ++ [name], entries)

/-- A walk through the folders of a stack, from the files `found` to those in the end. The entries of a folder are read
in any order. -/
inductive Walk : List Folder → List File → List File → Prop
  | done (found : List File) : Walk [] found found
  | visit {path : List String} {entries order : List (String × Entry)} {stack : List Folder} {found all : List File} :
      order.Perm entries →
      Walk ((order.filterMap (folder? path)).reverse ++ stack) (found ++ order.filterMap (file? path)) all →
      Walk ((path, entries) :: stack) found all

/-- The files of fixtures below a folder. -/
def filesBelow (folder : Folder) : List File :=
  ((Entry.filesOfList folder.2).filter isFixture).map fun file => (folder.1 ++ file.1, file.2)

/-- The files that are found and those that are still to be. -/
def pending (stack : List Folder) (found : List File) : List File := found ++ stack.flatMap filesBelow

/-- A folder around a path does not change the last name. -/
theorem isFixture_cons (name : String) {file : File} (h : file.1 ≠ []) :
    isFixture (name :: file.1, file.2) = isFixture file := by
  rw [isFixture, isFixture, List.getLast?_cons_of_ne_nil h]

theorem ne_nil_of_mem_filesOfList {entries : List (String × Entry)} {file : File}
    (h : file ∈ Entry.filesOfList entries) : file.1 ≠ [] := by
  obtain ⟨name, _, rest, hpath, -⟩ := Entry.mem_filesOfList_iff.1 h
  rw [hpath]
  exact List.cons_ne_nil name rest

theorem filesBelow_cons (path : List String) (e : String × Entry) (entries : List (String × Entry)) :
    filesBelow (path, e :: entries) =
      (file? path e).toList ++ (folder? path e).toList.flatMap filesBelow ++ filesBelow (path, entries) := by
  obtain ⟨name, entry⟩ := e
  have hcons : filesBelow (path, (name, entry) :: entries) =
      ((entry.files.map fun f => (name :: f.1, f.2)).filter isFixture).map (fun file => (path ++ file.1, file.2)) ++
        filesBelow (path, entries) := by
    rw [filesBelow, Entry.filesOfList, List.filter_append, List.map_append]
    rfl
  rw [hcons]
  congr 1
  cases entry with
  | file content =>
    have hname : isFixture ([name], content) = (extension? name == some "json") := rfl
    rw [Entry.files, List.map_singleton, List.filter_singleton, hname, file?]
    cases extension? name == some "json" <;> rfl
  | folder inner =>
    have hfilter : ((Entry.filesOfList inner).map fun f => (name :: f.1, f.2)).filter isFixture =
        ((Entry.filesOfList inner).filter isFixture).map fun f => (name :: f.1, f.2) := by
      rw [List.filter_map]
      exact congrArg _ (List.filter_congr fun file hfile => isFixture_cons name (ne_nil_of_mem_filesOfList hfile))
    rw [Entry.files, hfilter, List.map_map, folder?]
    show _ = filesBelow (path ++ [name], inner) ++ []
    rw [List.append_nil, filesBelow]
    refine List.map_congr_left fun file _ => ?_
    show (path ++ name :: file.1, file.2) = (path ++ [name] ++ file.1, file.2)
    rw [List.append_assoc]
    rfl

open scoped List in
/-- The files below a folder are its own and those below its folders. -/
theorem perm_filesBelow (path : List String) (entries : List (String × Entry)) :
    (filesBelow (path, entries)).Perm
      (entries.filterMap (file? path) ++ (entries.filterMap (folder? path)).flatMap filesBelow) := by
  induction entries with
  | nil => exact List.Perm.nil
  | cons e entries ih =>
    rw [filesBelow_cons, List.filterMap_eq_flatMap_toList, List.filterMap_eq_flatMap_toList, List.flatMap_cons,
      List.flatMap_cons, List.flatMap_append, ← List.filterMap_eq_flatMap_toList, ← List.filterMap_eq_flatMap_toList]
    generalize (file? path e).toList = file, (folder? path e).toList.flatMap filesBelow = inside
    generalize entries.filterMap (file? path) = files, (entries.filterMap (folder? path)).flatMap filesBelow = others
      at ih
    calc file ++ inside ++ filesBelow (path, entries)
      _ ~ file ++ inside ++ (files ++ others) := ih.append_left _
      _ = file ++ (inside ++ files ++ others) := by simp only [List.append_assoc]
      _ ~ file ++ (files ++ inside ++ others) := (List.perm_append_comm.append_right others).append_left file
      _ = file ++ files ++ (inside ++ others) := by simp only [List.append_assoc]

/-- The order of the entries does not matter to what is below a folder. -/
theorem filesBelow_perm {order entries : List (String × Entry)} (h : order.Perm entries) (path : List String) :
    (filesBelow (path, order)).Perm (filesBelow (path, entries)) := by
  unfold filesBelow
  rw [Entry.filesOfList_eq, Entry.filesOfList_eq]
  exact ((h.flatMap_right _).filter _).map _

/-- **One step of a walk** loses no file and finds none twice. -/
theorem perm_pending_visit {order entries : List (String × Entry)} (h : order.Perm entries) (path : List String)
    (stack : List Folder) (found : List File) :
    (pending ((order.filterMap (folder? path)).reverse ++ stack) (found ++ order.filterMap (file? path))).Perm
      (pending ((path, entries) :: stack) found) := by
  have hfolder : (order.filterMap (file? path) ++ (order.filterMap (folder? path)).reverse.flatMap filesBelow).Perm
      (filesBelow (path, entries)) :=
    (((List.reverse_perm _).flatMap_right _).append_left _).trans
      ((perm_filesBelow path order).symm.trans (filesBelow_perm h path))
  unfold pending
  rw [List.flatMap_append, List.flatMap_cons, List.append_assoc, ← List.append_assoc (order.filterMap _)]
  exact (hfolder.append_right _).append_left found

theorem Walk.perm_pending {stack : List Folder} {found all : List File} (h : Walk stack found all) :
    all.Perm (pending stack found) := by
  induction h with
  | done found => simp [pending]
  | visit horder _ ih => exact ih.trans (perm_pending_visit horder _ _ _)

mutual

/-- A folder can be walked through if the folders below it on the stack can. -/
theorem exists_walk_of_folder : ∀ (e : String × Entry) (path : List String) {stack : List Folder},
    (∀ found, ∃ all, Walk stack found all) → ∀ found, ∃ all, Walk ((folder? path e).toList ++ stack) found all
  | (_, .file _), _, _, h, found => h found
  | (name, .folder entries), path, _, h, found => by
    obtain ⟨all, hall⟩ := exists_walk_of_folders entries (path ++ [name]) h
      (found ++ entries.filterMap (file? (path ++ [name])))
    exact ⟨all, .visit (List.Perm.refl entries) hall⟩

theorem exists_walk_of_folders : ∀ (entries : List (String × Entry)) (path : List String) {stack : List Folder},
    (∀ found, ∃ all, Walk stack found all) →
    ∀ found, ∃ all, Walk ((entries.filterMap (folder? path)).reverse ++ stack) found all
  | [], _, _, h, found => h found
  | e :: entries, path, stack, h, found => by
    have hstack : ((e :: entries).filterMap (folder? path)).reverse ++ stack =
        (entries.filterMap (folder? path)).reverse ++ ((folder? path e).toList ++ stack) := by
      cases hfolder : folder? path e <;> simp [hfolder]
    rw [hstack]
    exact exists_walk_of_folders entries path (exists_walk_of_folder e path h) found

end

/-- Folders can be walked through. -/
theorem exists_walk (path : List String) (entries : List (String × Entry)) : ∃ all, Walk [(path, entries)] [] all := by
  have hnil : ∀ found, ∃ all, Walk [] found all := fun found => ⟨found, .done found⟩
  obtain ⟨all, hall⟩ := exists_walk_of_folders entries path hnil ([] ++ entries.filterMap (file? path))
  exact ⟨all, .visit (List.Perm.refl entries) hall⟩

/-- **A walk finds the files below its stack**, in some order. -/
theorem Walk.perm {stack : List Folder} {all : List File} (h : Walk stack [] all) :
    all.Perm (stack.flatMap filesBelow) :=
  h.perm_pending

/-! ## The list -/

/-- A file of a fixture in the folder: below `cases`, at any depth. -/
def IsFixtureOf (root : Entry) (file : File) : Prop :=
  ∃ folders name, IsFixtureName name ∧ file.1 = casesFolder :: (folders ++ [name]) ∧ root.Holds file.1 file.2

/-- The paths come one after the other. -/
def Ascending (files : List File) : Prop := files.Pairwise fun a b => compare a.1 b.1 = .lt

instance (files : List File) : Decidable (Ascending files) :=
  inferInstanceAs (Decidable (files.Pairwise fun a b => compare a.1 b.1 = .lt))

/-- The files of fixtures in the folder, in the order of their paths. -/
structure Lists (root : Entry) (files : List File) : Prop where
  mem : ∀ file, file ∈ files ↔ IsFixtureOf root file
  ascending : Ascending files

/-- The order of paths, name by name. -/
def byPath (a b : File) : Bool := (compare a.1 b.1).isLE

theorem byPath_trans (a b c : File) (hab : byPath a b = true) (hbc : byPath b c = true) : byPath a c = true :=
  Std.TransCmp.isLE_trans hab hbc

theorem byPath_total (a b : File) : (byPath a b || byPath b a) = true := by
  unfold byPath
  rw [Std.OrientedOrd.eq_swap (a := b.1)]
  cases compare a.1 b.1 <;> rfl

/-- Sorting puts files with different paths in ascending order. -/
theorem ascending_mergeSort {files : List File} (h : (files.map Prod.fst).Nodup) :
    Ascending (files.mergeSort byPath) := by
  have hdistinct : (files.mergeSort byPath).Pairwise fun a b => a.1 ≠ b.1 :=
    List.pairwise_map.1 (((List.mergeSort_perm files byPath).map Prod.fst).nodup_iff.2 h)
  refine ((List.pairwise_mergeSort byPath_trans byPath_total files).and hdistinct).imp fun {a b} ⟨hle, hne⟩ => ?_
  unfold byPath at hle
  cases hcompare : compare a.1 b.1 with
  | lt => rfl
  | eq => exact absurd (Std.LawfulEqCmp.eq_of_compare hcompare) hne
  | gt =>
    rw [hcompare] at hle
    cases hle

theorem Ascending.nodup {files : List File} (h : Ascending files) : files.Nodup := by
  refine h.imp fun {a b} hlt heq => ?_
  rw [heq, Std.ReflOrd.compare_self] at hlt
  cases hlt

/-- Ascending lists with the same files are the same. -/
theorem Ascending.eq {xs ys : List File} (hx : Ascending xs) (hy : Ascending ys) (h : ∀ file, file ∈ xs ↔ file ∈ ys) :
    xs = ys := by
  refine List.Perm.eq_of_pairwise (fun a b _ _ hab hba => ?_) hx hy ((List.perm_ext_iff_of_nodup hx.nodup hy.nodup).2 h)
  rw [Std.OrientedOrd.eq_swap, hab] at hba
  cases hba

/-- **There is one list only**, and it is that of all folders with the same files. -/
theorem Lists.unique {root root' : Entry} {files files' : List File} (h : Lists root files) (h' : Lists root' files')
    (hholds : ∀ path content, root.Holds path content ↔ root'.Holds path content) : files = files' := by
  refine h.ascending.eq h'.ascending fun file => ?_
  rw [h.mem, h'.mem, IsFixtureOf, IsFixtureOf]
  simp only [hholds]

theorem isFixture_iff {file : File} :
    isFixture file ↔ ∃ folders name, IsFixtureName name ∧ file.1 = folders ++ [name] := by
  rw [isFixture, beq_iff_eq, Option.bind_eq_some_iff]
  simp only [List.getLast?_eq_some_iff, extension?_eq_json_iff]
  constructor
  · rintro ⟨name, ⟨folders, hpath⟩, hname⟩
    exact ⟨folders, name, hname, hpath⟩
  · rintro ⟨folders, name, hname, hpath⟩
    exact ⟨name, ⟨folders, hpath⟩, hname⟩

theorem mem_filesBelow_iff {path : List String} {entries : List (String × Entry)} {file : File} :
    file ∈ filesBelow (path, entries) ↔ ∃ folders name, IsFixtureName name ∧ file.1 = path ++ (folders ++ [name]) ∧
      (Entry.folder entries).Holds (folders ++ [name]) file.2 := by
  rw [filesBelow, List.mem_map]
  constructor
  · rintro ⟨⟨rest, content⟩, hfile, rfl⟩
    obtain ⟨hmem, hfixture⟩ := List.mem_filter.1 hfile
    obtain ⟨folders, name, hname, rfl⟩ := isFixture_iff.1 hfixture
    exact ⟨folders, name, hname, rfl, Entry.mem_files_iff.1 hmem⟩
  · rintro ⟨folders, name, hname, hpath, hholds⟩
    refine ⟨(folders ++ [name], file.2), List.mem_filter.2 ⟨Entry.mem_files_iff.2 hholds, ?_⟩, ?_⟩
    · exact isFixture_iff.2 ⟨folders, name, hname, rfl⟩
    · exact Prod.ext hpath.symm rfl

theorem nodup_filesBelow {entries : List (String × Entry)} (h : (Entry.folder entries).Proper) (path : List String) :
    ((filesBelow (path, entries)).map Prod.fst).Nodup := by
  have hfiles : (((Entry.filesOfList entries).filter isFixture).map Prod.fst).Nodup :=
    (Entry.nodup_files h).sublist (List.filter_sublist.map _)
  rw [filesBelow, List.map_map]
  have hmap : ((Entry.filesOfList entries).filter isFixture).map (Prod.fst ∘ fun file => (path ++ file.1, file.2)) =
      (((Entry.filesOfList entries).filter isFixture).map Prod.fst).map (path ++ ·) := by
    rw [List.map_map]
    rfl
  rw [hmap]
  exact hfiles.map (List.append_right_injective path)

/-- A name in front of two paths does not change their order. -/
theorem byPath_cons (name : String) (a b : File) : byPath (name :: a.1, a.2) (name :: b.1, b.2) = byPath a b := by
  show (compare (name :: a.1) (name :: b.1)).isLE = (compare a.1 b.1).isLE
  rw [List.compare_eq_compareLex, List.compareLex_cons_cons, Std.ReflOrd.compare_self]
  rfl

section Folders

variable {top entries : List (String × Entry)}

theorem find_casesFolder (top : List (String × Entry)) :
    (Entry.folder top).find [] [casesFolder] = (top.lookup casesFolder).elim (.error .missing) .ok :=
  Entry.find_name rfl (by decide) (by decide)

/-- The files below the folder `cases` are listed in the order of their paths. -/
theorem fixtureFiles_of_folder
    (h : top.lookup casesFolder = some (.folder entries)) :
    fixtureFiles (.folder top) = .ok ((filesBelow ([casesFolder], entries)).mergeSort byPath) := by
  have hfind : (Entry.folder top).find [] [casesFolder] = .ok (.folder entries) := by
    rw [find_casesFolder, h]
    rfl
  have hsort : (((Entry.folder entries).files.filter isFixture).mergeSort byPath).map
      (fun file => (casesFolder :: file.1, file.2)) = (filesBelow ([casesFolder], entries)).mergeSort byPath :=
    List.map_mergeSort fun a _ b _ => (byPath_cons casesFolder a b).symm
  rw [fixtureFiles, hfind]
  exact congrArg Except.ok hsort

/-- Nothing is below `cases`. -/
theorem lists_nil {root : Entry} (h : ∀ path content, ¬root.Holds (casesFolder :: path) content) : Lists root [] := by
  refine ⟨fun file => iff_of_false List.not_mem_nil ?_, List.Pairwise.nil⟩
  rintro ⟨folders, name, -, hpath, hholds⟩
  rw [hpath] at hholds
  exact h _ _ hholds

/-- The files below the folder `cases` are all files of fixtures. -/
theorem lists_of_folder (htop : (Entry.folder top).Proper) (h : top.lookup casesFolder = some (.folder entries)) :
    Lists (.folder top) ((filesBelow ([casesFolder], entries)).mergeSort byPath) := by
  have hentries : (Entry.folder entries).Proper := htop.entry ((Entry.lookup_eq_some_iff htop.nodup).1 h)
  refine ⟨fun file => ?_, ascending_mergeSort (nodup_filesBelow hentries _)⟩
  rw [(List.mergeSort_perm _ _).mem_iff, mem_filesBelow_iff, IsFixtureOf]
  refine exists_congr fun folders => exists_congr fun name => and_congr_right fun _ => and_congr_right fun hpath => ?_
  rw [hpath, List.singleton_append, Entry.holds_cons_iff_of_lookup htop.nodup, h]
  simp

/-- **What a walk has found is the list once it is sorted**, in whatever order folders are read. -/
theorem Walk.mergeSort_eq (htop : (Entry.folder top).Proper) (h : top.lookup casesFolder = some (.folder entries))
    {found : List File} (hwalk : Walk [([casesFolder], entries)] [] found) :
    found.mergeSort byPath = (filesBelow ([casesFolder], entries)).mergeSort byPath := by
  have hentries : (Entry.folder entries).Proper := htop.entry ((Entry.lookup_eq_some_iff htop.nodup).1 h)
  have hperm : found.Perm (filesBelow ([casesFolder], entries)) := by
    have hfound := hwalk.perm
    rwa [List.flatMap_singleton] at hfound
  have hpaths := nodup_filesBelow hentries [casesFolder]
  refine (ascending_mergeSort ((hperm.map _).nodup_iff.2 hpaths)).eq (ascending_mergeSort hpaths) fun file => ?_
  rw [(List.mergeSort_perm _ _).mem_iff, (List.mergeSort_perm _ _).mem_iff, hperm.mem_iff]

end Folders

/-- **The list is that of the files of fixtures.** Only a file in place of the folder `cases` makes it fail. -/
theorem lists_of_fixtureFiles {root : Entry} (hroot : root.Proper) :
    (∃ content, root.Holds [casesFolder] content) ∧ fixtureFiles root = .error .notFolder ∨
      (∀ content, ¬root.Holds [casesFolder] content) ∧ ∃ files, fixtureFiles root = .ok files ∧ Lists root files := by
  cases root with
  | file content => exact .inr ⟨nofun, [], rfl, lists_nil nofun⟩
  | folder top =>
    have hnames := hroot.nodup
    cases hlookup : top.lookup casesFolder with
    | none =>
      have hnone : ∀ path content, ¬(Entry.folder top).Holds (casesFolder :: path) content := by
        intro path content hholds
        rw [Entry.holds_cons_iff_of_lookup hnames, hlookup] at hholds
        obtain ⟨_, ⟨⟩, _⟩ := hholds
      refine .inr ⟨hnone [], [], ?_, lists_nil hnone⟩
      rw [fixtureFiles, find_casesFolder, hlookup]
      rfl
    | some entry =>
      cases entry with
      | file content =>
        refine .inl ⟨⟨content, (Entry.holds_cons_iff_of_lookup hnames).2 ⟨_, hlookup, .file content⟩⟩, ?_⟩
        rw [fixtureFiles, find_casesFolder, hlookup]
        rfl
      | folder entries =>
        refine .inr ⟨fun content hholds => ?_, _, fixtureFiles_of_folder hlookup, lists_of_folder hroot hlookup⟩
        rw [Entry.holds_cons_iff_of_lookup hnames, hlookup] at hholds
        obtain ⟨_, ⟨⟩, hfile⟩ := hholds
        cases hfile

/-- **The list depends on the files only**, and not on the order of the entries. -/
theorem fixtureFiles_congr {root root' : Entry} (hroot : root.Proper) (hroot' : root'.Proper)
    (h : ∀ path content, root.Holds path content ↔ root'.Holds path content) :
    fixtureFiles root = fixtureFiles root' := by
  have hfile : (∃ content, root.Holds [casesFolder] content) ↔ ∃ content, root'.Holds [casesFolder] content :=
    exists_congr fun content => h [casesFolder] content
  rcases lists_of_fixtureFiles hroot with ⟨hcases, herror⟩ | ⟨hcases, files, hfiles, hlists⟩
  · have herror' := (lists_of_fixtureFiles hroot').resolve_right fun hright => (hfile.1 hcases).elim hright.1
    rw [herror, herror'.2]
  · obtain ⟨-, files', hfiles', hlists'⟩ :=
      (lists_of_fixtureFiles hroot').resolve_left fun hleft => (hfile.2 hleft.1).elim hcases
    rw [hfiles, hfiles', hlists.unique hlists' h]

end SeriesFormula.Suite
