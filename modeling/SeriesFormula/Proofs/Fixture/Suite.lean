import SeriesFormula.Proofs.Fixture.Listing
import SeriesFormula.Proofs.Result

/-!
# Suites of fixtures

- sorting by ids keeps fixtures of one id in their order (`filter_sortById`), so that the fixtures of an id can be taken
  before or after it;
- a folder's fixtures are run if all its files hold one (`agree_of_loaded`), and otherwise each run fails with the error
  of the first file that holds none (`failAlike_of_faulty`);
- the runs depend on the files of the folder only (`runs_agree`).
-/

namespace SeriesFormula

/-! ## Sorting by ids -/

namespace Suite

/-- The order of the ids. -/
def byId (a b : Fixture) : Bool := a.caseId ≤ b.caseId

theorem byId_trans (a b c : Fixture) (hab : byId a b = true) (hbc : byId b c = true) : byId a c = true :=
  decide_eq_true (String.le_trans (of_decide_eq_true hab) (of_decide_eq_true hbc))

theorem byId_total (a b : Fixture) : (byId a b || byId b a) = true := by
  rw [Bool.or_eq_true]
  exact (String.le_total a.caseId b.caseId).imp (fun h => decide_eq_true h) fun h => decide_eq_true h

theorem pairwise_sortById (fixtures : List Fixture) :
    (sortById fixtures).Pairwise fun a b => a.caseId ≤ b.caseId :=
  (List.pairwise_mergeSort byId_trans byId_total fixtures).imp fun h => of_decide_eq_true h

/-- Fixtures of one id are in order. -/
theorem pairwise_filter (fixtures : List Fixture) (id : String) :
    (fixtures.filter (·.caseId == id)).Pairwise fun a b => byId a b = true := by
  refine List.pairwise_of_forall_mem_list fun a ha b hb => ?_
  have hid : a.caseId = b.caseId := (eq_of_beq (List.mem_filter.1 ha).2).trans (eq_of_beq (List.mem_filter.1 hb).2).symm
  exact decide_eq_true (hid ▸ String.le_refl _)

/-- **Fixtures of one id keep their order.** -/
theorem filter_sortById (fixtures : List Fixture) (id : String) :
    (sortById fixtures).filter (·.caseId == id) = fixtures.filter (·.caseId == id) := by
  have hsublist : (fixtures.filter (·.caseId == id)).Sublist (sortById fixtures) :=
    List.sublist_mergeSort byId_trans byId_total (pairwise_filter fixtures id) List.filter_sublist
  have hkept := hsublist.filter (·.caseId == id)
  rw [List.filter_filter] at hkept
  simp only [Bool.and_self] at hkept
  refine (hkept.eq_of_length ?_).symm
  exact ((List.mergeSort_perm fixtures _).filter _).length_eq.symm

theorem sortById_filter (fixtures : List Fixture) (id : String) :
    sortById (fixtures.filter (·.caseId == id)) = fixtures.filter (·.caseId == id) :=
  List.mergeSort_of_pairwise (pairwise_filter fixtures id)

end Suite

/-! ## Reports -/

/-- The results are those of the fixtures in the order of their ids, and in the order of the fixtures for each id. -/
structure SuiteReport.IsOf (report : SuiteReport) (fixtures : List Fixture) : Prop where
  perm : report.results.Perm (fixtures.map Fixture.run)
  sorted : report.results.Pairwise fun a b => a.caseId ≤ b.caseId
  ties : ∀ id, report.results.filter (·.caseId == id) = (fixtures.map Fixture.run).filter (·.caseId == id)

/-- A result has the id of its fixture. -/
theorem filter_map_run (fixtures : List Fixture) (id : String) :
    (fixtures.map Fixture.run).filter (·.caseId == id) = (fixtures.filter (·.caseId == id)).map Fixture.run := by
  rw [List.filter_map]
  rfl

theorem SuiteReport.isOf_ofFixtures (suite : String) (fixtures : List Fixture) :
    (ofFixtures suite (Suite.sortById fixtures)).IsOf fixtures where
  perm := (List.mergeSort_perm fixtures _).map _
  sorted := List.pairwise_map.2 (Suite.pairwise_sortById fixtures)
  ties id := by
    show ((Suite.sortById fixtures).map Fixture.run).filter _ = _
    rw [filter_map_run, filter_map_run, Suite.filter_sortById]

namespace Suite

/-- The report of a case is that of its fixtures, and there is none without fixtures. -/
theorem report_some (fixtures : List Fixture) (id : String) : report fixtures (some id) =
    if (fixtures.filter (·.caseId == id)).isEmpty then .error (.unknownCase id)
    else .ok (.ofFixtures ("formula_cases:" ++ id) (fixtures.filter (·.caseId == id))) := by
  simp only [report, sortById_filter]
  cases fixtures.filter (·.caseId == id) <;> rfl

/-! ## Runs -/

section Runs

variable {root : Entry} {files : List File}

theorem run_of_fixtureFiles (h : fixtureFiles root = .ok files) (caseId : Option String) :
    run root caseId = files.mapM loadFixture >>= fun fixtures => report fixtures caseId := by
  rw [run, h]
  rfl

theorem countFiles_of_fixtureFiles (h : fixtureFiles root = .ok files) : countFiles root = files.length := by
  rw [countFiles, h]

/-- Each run fails with the error of the first file that holds no fixture. -/
def FailAlike (root : Entry) (files : List File) : Prop :=
  ∃ before file after error, files = before ++ file :: after ∧
    (∀ other ∈ before, ∃ fixture, loadFixture other = .ok fixture) ∧ loadFixture file = .error error ∧
    ∀ caseId, run root caseId = .error error

/-- The run of all fixtures has their results, as many as there are files, and the run of a case has its part of these. -/
def Agree (root : Entry) (fixtures : List Fixture) : Prop :=
  ∃ report, run root none = .ok report ∧ report.IsOf fixtures ∧ report.fixtureCount = countFiles root ∧ ∀ id,
    (run root (some id) = .error (.unknownCase id) ↔ ∀ result ∈ report.results, result.caseId ≠ id) ∧
    ((∃ result ∈ report.results, result.caseId = id) →
      ∃ single, run root (some id) = .ok single ∧ single.results = report.results.filter (·.caseId == id))

theorem failAlike_of_faulty (h : fixtureFiles root = .ok files) {error : SuiteError}
    (hload : files.mapM loadFixture = .error error) : FailAlike root files := by
  obtain ⟨before, file, after, hfiles, hbefore, hfile⟩ := mapM_eq_error_iff.1 hload
  refine ⟨before, file, after, error, hfiles, hbefore, hfile, fun caseId => ?_⟩
  rw [run_of_fixtureFiles h, hload]
  rfl

theorem agree_of_loaded (h : fixtureFiles root = .ok files) {fixtures : List Fixture}
    (hload : files.mapM loadFixture = .ok fixtures) : Agree root fixtures := by
  have hrun : ∀ caseId, run root caseId = report fixtures caseId := fun caseId => by
    rw [run_of_fixtureFiles h, hload]
    rfl
  have hisOf := SuiteReport.isOf_ofFixtures "formula_cases" fixtures
  refine ⟨_, hrun none, hisOf, ?_, fun id => ?_⟩
  · rw [countFiles_of_fixtureFiles h, (mapM_eq_ok_iff.1 hload).length_eq]
    show (SuiteReport.ofFixtures "formula_cases" (sortById fixtures)).results.length = fixtures.length
    rw [hisOf.perm.length_eq, List.length_map]
  · have hresults := (hisOf.ties id).trans (filter_map_run fixtures id)
    have hnone : (fixtures.filter (·.caseId == id)).isEmpty ↔
        ∀ result ∈ (SuiteReport.ofFixtures "formula_cases" (sortById fixtures)).results, result.caseId ≠ id := by
      rw [List.isEmpty_iff, ← List.map_eq_nil_iff, ← hresults, List.filter_eq_nil_iff]
      simp only [beq_iff_eq]
    rw [hrun, report_some]
    refine ⟨?_, fun ⟨result, hresult, hid⟩ => ?_⟩
    · rw [← hnone]
      split
      · rename_i hempty
        exact iff_of_true rfl hempty
      · rename_i hempty
        exact iff_of_false nofun hempty
    · rw [if_neg fun hempty => hnone.1 hempty result hresult hid]
      exact ⟨_, rfl, hresults.symm⟩

end Runs

/-- **Runs of the fixtures in a folder agree.** They depend on its files only. Unless a file stands in place of the
folder `cases`, the fixture files are listed: exactly the files below that folder whose names end in `.json`, in the
order of their paths, as a walk finds them in whatever order it reads the folders. If one of them holds no fixture, each
run fails with the error of the first such file. Otherwise the run of all fixtures has their results in the order of
their ids, in that of their paths where the ids are the same, and the run of a case has its part of these results in the
same order, or finds no such case if there are none. -/
theorem runs_agree {root : Entry} (hroot : root.Proper) :
    (∀ root', root'.Proper → (∀ path content, root.Holds path content ↔ root'.Holds path content) →
      countFiles root' = countFiles root ∧ ∀ caseId, run root' caseId = run root caseId) ∧
    ((∃ content, root.Holds [casesFolder] content) → countFiles root = 0 ∧
      ∀ caseId, run root caseId = .error (.file .notFolder)) ∧
    ((∀ content, ¬root.Holds [casesFolder] content) → ∃ files, fixtureFiles root = .ok files ∧ Lists root files ∧
      (∀ top entries, root = .folder top → (casesFolder, .folder entries) ∈ top →
        (∃ found, Walk [([casesFolder], entries)] [] found) ∧
        ∀ found, Walk [([casesFolder], entries)] [] found → found.mergeSort byPath = files) ∧
      ((∃ file ∈ files, ∃ error, loadFixture file = .error error) → FailAlike root files) ∧
      ((∀ file ∈ files, ∃ fixture, loadFixture file = .ok fixture) →
        ∃ fixtures, List.Forall₂ (fun file fixture => loadFixture file = .ok fixture) files fixtures ∧
          Agree root fixtures)) := by
  refine ⟨fun root' hroot' hholds => ?_, fun hfile => ?_, fun hfolder => ?_⟩
  · have hfiles : fixtureFiles root' = fixtureFiles root := (fixtureFiles_congr hroot hroot' hholds).symm
    refine ⟨by rw [countFiles, countFiles, hfiles], fun caseId => by rw [run, run, hfiles]⟩
  · have herror : fixtureFiles root = .error .notFolder :=
      ((lists_of_fixtureFiles hroot).resolve_right fun h => hfile.elim h.1).2
    exact ⟨by rw [countFiles, herror], fun caseId => by rw [run, herror]; rfl⟩
  · obtain ⟨files, hfiles, hlists⟩ := ((lists_of_fixtureFiles hroot).resolve_left fun h => h.1.elim hfolder).2
    refine ⟨files, hfiles, hlists, fun top entries htop hentries => ?_, fun ⟨file, hfile, error, herror⟩ => ?_,
      fun hloaded => ?_⟩
    · subst htop
      have hlookup := (Entry.lookup_eq_some_iff hroot.nodup).2 hentries
      refine ⟨exists_walk _ _, fun found hwalk => ?_⟩
      have hsorted := fixtureFiles_of_folder hlookup
      rw [hfiles, ← hwalk.mergeSort_eq hroot hlookup] at hsorted
      exact (Except.ok.inj hsorted).symm
    · have hnone : ¬∃ fixtures, files.mapM loadFixture = .ok fixtures := fun hload => by
        obtain ⟨fixture, hfixture⟩ := exists_mapM_eq_ok_iff.1 hload file hfile
        rw [hfixture] at herror
        cases herror
      obtain ⟨error, hload⟩ := exists_eq_error_iff.2 hnone
      exact failAlike_of_faulty hfiles hload
    · obtain ⟨fixtures, hload⟩ := exists_mapM_eq_ok_iff.2 hloaded
      exact ⟨fixtures, mapM_eq_ok_iff.1 hload, agree_of_loaded hfiles hload⟩

/-- The text of a fixture with the id `one`. -/
def sampleText (formula : String) : String :=
  "\x7b\"case_id\":\"one\",\"formula\":\"" ++ formula ++ "\",\"expected\":\x7b\"scalar\":1\x7d\x7d"

/-- The fixture of that text. -/
def sample (formula : String) : Fixture := ⟨"one", formula, ∅, .scalar 1, none⟩

/-- Two files of fixtures, one of them in a folder of its own, and one that is no text. -/
def sampleEntries : List (String × Entry) :=
  [("b.json", .file (some (sampleText "2"))), ("notes.txt", .file none),
    ("a", .folder [("c.json", .file (some (sampleText "1")))])]

def sampleRoot : Entry := .folder [(casesFolder, .folder sampleEntries)]

theorem proper_sampleRoot : sampleRoot.Proper := by
  have hfile : ∀ {name : String} {content : Option String}, Entry.Proper (name, Entry.file content).2 := .file _
  have hinner : (Entry.folder [("c.json", .file (some (sampleText "1")))]).Proper :=
    .folder (by decide) (List.forall_mem_singleton.2 hfile)
  have hentries : ∀ e ∈ sampleEntries, Entry.Proper e.2 :=
    List.forall_mem_cons.2 ⟨hfile, List.forall_mem_cons.2 ⟨hfile, List.forall_mem_singleton.2 hinner⟩⟩
  exact .folder (by decide) (List.forall_mem_singleton.2 (.folder (by decide) hentries))

/-- The file in the inner folder comes first. -/
theorem fixtureFiles_sampleRoot : fixtureFiles sampleRoot =
    .ok [(["cases", "a", "c.json"], some (sampleText "1")), (["cases", "b.json"], some (sampleText "2"))] := by
  rw [sampleRoot, fixtureFiles_of_folder rfl]
  refine congrArg Except.ok ((ascending_mergeSort (by decide)).eq (by decide) fun file => ?_)
  rw [(List.mergeSort_perm _ _).mem_iff]
  show file ∈ [(["cases", "b.json"], some (sampleText "2")), (["cases", "a", "c.json"], some (sampleText "1"))] ↔ _
  simp [or_comm]

/-- Two cases of one id are run in the order of their paths, and there is no other case. -/
theorem runs_agree_nested :
    sampleRoot.Proper ∧ (∀ content, ¬sampleRoot.Holds [casesFolder] content) ∧
      ∃ report, run sampleRoot none = .ok report ∧ report.results.map CaseResult.formula = ["1", "2"] ∧
        run sampleRoot (some "two") = .error (.unknownCase "two") := by
  have hfirst : loadFixture (["cases", "a", "c.json"], some (sampleText "1")) = .ok (sample "1") := by
    with_unfolding_all rfl
  have hsecond : loadFixture (["cases", "b.json"], some (sampleText "2")) = .ok (sample "2") := by
    with_unfolding_all rfl
  have hfolder : ∀ content, ¬sampleRoot.Holds [casesFolder] content := by
    intro content hholds
    obtain ⟨entry, hentry, hentries⟩ := Entry.holds_folder_cons_iff.1 hholds
    cases List.mem_singleton.1 hentry
    cases hentries
  obtain ⟨files, hfiles, -, -, -, hloaded⟩ := (runs_agree proper_sampleRoot).2.2 hfolder
  obtain rfl := Except.ok.inj (fixtureFiles_sampleRoot.symm.trans hfiles)
  obtain ⟨fixtures, hfixtures, report, hrun, hisOf, -, hids⟩ :=
    hloaded (List.forall_mem_cons.2 ⟨⟨_, hfirst⟩, List.forall_mem_singleton.2 ⟨_, hsecond⟩⟩)
  have hsamples := mapM_eq_ok_iff.2 (.cons hfirst (.cons hsecond .nil))
  obtain rfl : [sample "1", sample "2"] = fixtures := Except.ok.inj (hsamples.symm.trans (mapM_eq_ok_iff.2 hfixtures))
  have hone : ∀ result ∈ report.results, result.caseId = "one" := by
    intro result hresult
    have hmem := hisOf.perm.mem_iff.1 hresult
    rcases List.mem_cons.1 hmem with rfl | hmem
    · rfl
    · cases List.mem_singleton.1 hmem
      rfl
  refine ⟨proper_sampleRoot, hfolder, report, hrun, ?_, (hids "two").1.2 fun result hresult => ?_⟩
  · have hties := hisOf.ties "one"
    rw [List.filter_eq_self.2 fun result hresult => beq_iff_eq.2 (hone result hresult)] at hties
    rw [hties]
    rfl
  · rw [hone result hresult]
    decide

end Suite

end SeriesFormula
