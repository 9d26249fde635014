import SeriesFormula.Exchange.Decode
import SeriesFormula.Exchange.Encode
import SeriesFormula.Proofs.Formula.Counting
import SeriesFormula.Proofs.Json.Written

/-!
# Saved ledgers

A record of a number that is not finite is written with `null` for its value, and no reader of outcomes takes `null` for
a number. All other records are read back, as long as their numbers are natural ones that are read at all: outcomes
(`CallOutcome.gives_toJson`), then records (`CallRecord.gives_toJson`), then ledgers (`Ledger.run_indented`). So a saved
ledger of runs is read back iff all numbers that the calls have ended with are finite (`Ledger.run_indented_ofRuns`).
-/

namespace SeriesFormula

open Json

/-! ## Outcomes -/

namespace CallOutcome

/-- The number of an outcome is finite. -/
def isFinite : CallOutcome Float → Bool
  | scalar x => Decimal.isFinite x
  | _ => true

/-- The tag of an outcome and its name. -/
def tag : CallOutcome Float → String × Tag
  | scalar _ => ("scalar", .scalar)
  | series _ => ("series", .series)
  | failed _ => ("failed", .failed)

/-- The member behind the tag. -/
def members : CallOutcome Float → List (String × Json)
  | scalar value => [("value", .number value)]
  | series length => [("len", .natural length)]
  | failed message => [("message", .string message)]

theorem toJson_eq (outcome : CallOutcome Float) :
    outcome.toJson = .object (("kind", .string outcome.tag.1) :: outcome.members) := by
  cases outcome <;> rfl

/-- The second reading: what was kept for the tag. -/
def readKept : Tag → Reader (CallOutcome Float)
  | .scalar => fun mode rest => .scalar <$> Reader.single "value" .number mode rest
  | .series => fun mode rest => .series <$> Reader.single "len" .natural mode rest
  | .failed => fun mode rest => .failed <$> Reader.single "message" .text mode rest

/-- The first reading checks the member behind the tag and leaves it to the second. -/
theorem reader_toJson (mode : Mode) (outcome : CallOutcome Float) :
    reader mode outcome.toJson.document =
      (mode.inside >>= fun inner => Reader.checkKept mode inner outcome.members) >>= fun _ =>
        readKept outcome.tag.2 { mode with kept := true } (Json.object outcome.members).document := by
  have htag : [("scalar", Tag.scalar), ("series", .series), ("failed", .failed)].lookup outcome.tag.1 =
      some outcome.tag.2 := by cases outcome <;> rfl
  have hmembers : ∀ m ∈ outcome.members, m.1 ≠ "kind" := by cases outcome <;> simp [members]
  show (Reader.tagged "kind" _ mode outcome.toJson.document >>= _) = _
  rw [toJson_eq, Reader.tagged_object_bind htag hmembers mode]
  cases outcome <;> rfl

/-- The first reading lets every member pass: that a number is missing is seen in the second only. -/
theorem checkKept_members {outcome : CallOutcome Float} (h : outcome.CountsTo Reader.maxNatural) (mode inner : Mode) :
    Reader.checkKept mode inner outcome.members = .ok () := by
  cases outcome with
  | scalar x => exact Reader.checkKept_singleton (check_number x inner) _
  | series length => exact Reader.checkKept_singleton (check_natural h inner) _
  | failed message => exact Reader.checkKept_singleton rfl _

/-- **A number that is not finite is refused, and every other outcome is read back.** -/
theorem gives_toJson {outcome : CallOutcome Float} (h : outcome.CountsTo Reader.maxNatural) :
    reader.Gives outcome.toJson 1 (if outcome.isFinite then .ok outcome else wrongShape) := by
  intro mode hmode
  obtain ⟨inner, hinside, -, -⟩ := hmode.inside
  have hkept : ({ mode with kept := true } : Mode).Allows 1 := .inl rfl
  rw [reader_toJson, hinside]
  show (Reader.checkKept mode inner outcome.members >>= _) = _
  rw [checkKept_members h]
  cases outcome with
  | scalar x =>
    show CallOutcome.scalar <$> Reader.single "value" .number _ (Json.object [("value", .number x)]).document = _
    rw [Reader.Gives.single (n := 0) (Reader.Gives.number x) _ hkept, isFinite]
    cases Decimal.isFinite x <;> rfl
  | series length =>
    show CallOutcome.series <$> Reader.single "len" .natural _ (Json.object [("len", .natural length)]).document = _
    rw [Reader.Reads.single (n := 0) (Reader.Reads.natural h) _ hkept]
    rfl
  | failed message =>
    show CallOutcome.failed <$>
      Reader.single "message" .text _ (Json.object [("message", .string message)]).document = _
    rw [Reader.Reads.single (n := 0) (Reader.Reads.text message) _ hkept]
    rfl

end CallOutcome

/-! ## Records -/

theorem ValueKind.reads_toJson (kind : ValueKind) (n : ℕ) : reader.Reads kind.toJson n kind := by
  intro mode _
  cases kind <;> rfl

/-- A record is read back iff its outcome is. -/
theorem CallRecord.gives_toJson {record : CallRecord Float} (h : record.CountsTo Reader.maxNatural) :
    reader.Gives record.toJson 2 (if record.outcome.isFinite then .ok record else wrongShape) := by
  have hkinds : (Reader.list ValueKind.reader).Reads (.array (record.argumentKinds.map ValueKind.toJson)) 1
      record.argumentKinds :=
    Reader.Reads.list_map fun kind _ => kind.reads_toJson 0
  intro mode hmode
  refine (Reader.Gives.check (Reader.Gives.record
    (r := (if record.outcome.isFinite then .ok record.outcome else wrongShape).map fun outcome =>
      ⟨record.depth, record.function, record.argumentKinds, outcome⟩) fun mode hmode => ?_) _ mode hmode).trans ?_
  · rw [Reader.foldlM_readMember_cons rfl (Reader.read_slot rfl (Reader.Reads.natural h.1) hmode),
      Reader.foldlM_readMember_cons rfl (Reader.read_slot rfl (Reader.Reads.text record.function) hmode),
      Reader.foldlM_readMember_cons rfl (Reader.read_slot rfl hkinds hmode),
      Reader.foldlM_readMember rfl, Reader.read_slot_of_gives rfl (CallOutcome.gives_toJson h.2) hmode]
    cases record.outcome.isFinite <;> rfl
  · cases record.outcome.isFinite <;> rfl

/-! ## Ledgers -/

namespace Ledger

/-- **A ledger is read back iff the numbers of its records are finite.** -/
theorem run_indented {ledger : Ledger Float} (h : ∀ record ∈ ledger.records, record.CountsTo Reader.maxNatural) :
    reader.run ledger.toJson.indented =
      if ledger.records.all (·.outcome.isFinite) then .ok ledger else .error (.document .data) := by
  have hrecords : (Reader.list CallRecord.reader).Gives (.array (ledger.records.map CallRecord.toJson)) 3
      (if ledger.records.all (·.outcome.isFinite) then .ok ledger.records else wrongShape) := by
    have hgives := Reader.Gives.list fun record hrecord => CallRecord.gives_toJson (h record hrecord)
    exact (mapM_ite (·.outcome.isFinite) _ ledger.records) ▸ hgives
  rw [reader, toJson, (hrecords.single.check _).run_indented (by decide)]
  cases ledger.records.all (·.outcome.isFinite) <;> rfl

/-- **A saved ledger of runs is read back iff no call has ended with a number that is not finite.** Otherwise the file
that was saved is refused for its values. -/
theorem run_indented_ofRuns {runs : List Run} (h : ∀ run ∈ runs, run.environment.CountsTo Reader.maxNatural) :
    reader.run (ofRuns runs).toJson.indented =
      if (ofRuns runs).records.all (·.outcome.isFinite) then .ok (ofRuns runs) else .error (.document .data) :=
  run_indented (countsTo_ofRuns h)

/-- A store of one series with two values. -/
def pairStore (x y : Float) : Store Float := fun id =>
  if id = "gdp" then some ⟨"gdp", [⟨"2020-01-01", some x⟩, ⟨"2020-02-01", some y⟩]⟩ else none

theorem countsTo_pairStore (formula : String) (x y : Float) :
    (Run.mk .standard formula (pairStore x y)).environment.CountsTo Reader.maxNatural where
  depth := by
    show 64 ≤ Reader.maxNatural
    decide
  store id s hs := by
    change (if id = "gdp" then _ else _) = _ at hs
    split at hs
    · cases hs
      show 2 ≤ Reader.maxNatural
      decide
    · cases hs
  call := Registry.isBuiltin_builtin.countsTo_of_call

/-- Two runs, of which the second fails inside of a call. -/
theorem run_indented_ofRuns_failed :
    let runs : List Run :=
      [⟨.standard, "SUM(MA(GDP,2))", pairStore 1.5 2⟩, ⟨.standard, "AVG(ROC(GDP,0))", pairStore 3 4⟩]
    (∀ run ∈ runs, run.environment.CountsTo Reader.maxNatural) ∧ (ofRuns runs).records.length = 3 ∧
      reader.run (ofRuns runs).toJson.indented = .ok (ofRuns runs) := by
  have hsum : Engine.standard.parse "SUM(MA(GDP,2))" =
      .ok (.call "SUM" [.call "MA" [.identifier "GDP", .literal 2]]) := by with_unfolding_all rfl
  have haverage : Engine.standard.parse "AVG(ROC(GDP,0))" =
      .ok (.call "AVG" [.call "ROC" [.identifier "GDP", .literal 0]]) := by with_unfolding_all rfl
  intro runs
  have hcounts : ∀ run ∈ runs, run.environment.CountsTo Reader.maxNatural :=
    List.forall_mem_cons.2 ⟨countsTo_pairStore _ _ _, List.forall_mem_singleton.2 (countsTo_pairStore _ _ _)⟩
  have hrecords : (ofRuns runs).records = [⟨2, "MA", [.series, .scalar], .series 1⟩,
      ⟨1, "SUM", [.series], .scalar 1.75⟩,
      ⟨2, "ROC", [.series, .scalar], .failed "ROC: periods must be a positive integer, got 0"⟩] := by
    rw [records_ofRuns, List.flatMap_cons, List.flatMap_singleton, Run.records_evaluation hsum,
      Run.records_evaluation haverage]
    decide +kernel
  have hread := run_indented_ofRuns hcounts
  rw [hrecords, if_pos (by decide +kernel)] at hread
  exact ⟨hcounts, congrArg List.length hrecords, hread⟩

/-- The sum of two large numbers is infinite, and the ledger that records it is not read back. -/
theorem run_indented_ofRuns_infinite :
    reader.run (ofRuns [⟨.standard, "SUM(GDP)", pairStore 1e308 1e308⟩]).toJson.indented =
      .error (.document .data) := by
  have hsum : Engine.standard.parse "SUM(GDP)" = .ok (.call "SUM" [.identifier "GDP"]) := by with_unfolding_all rfl
  have hcounts := countsTo_ofRuns (List.forall_mem_singleton.2 (countsTo_pairStore "SUM(GDP)" 1e308 1e308))
  have hfinite : ¬(ofRuns [⟨.standard, "SUM(GDP)", pairStore 1e308 1e308⟩]).records.all (·.outcome.isFinite) := by
    rw [records_ofRuns, List.flatMap_singleton, Run.records_evaluation hsum]
    decide +kernel
  rw [run_indented hcounts, if_neg hfinite]

end Ledger

end SeriesFormula
