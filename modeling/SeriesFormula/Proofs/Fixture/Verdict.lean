import Mathlib.Data.List.Forall2
import SeriesFormula.Fixture.Suite
import SeriesFormula.Proofs.Decimal.Order

/-!
# Verdicts on fixtures

- `Matches` says when an outcome is as expected. No mismatch is found exactly then (`mismatch?_eq_none_iff`);
- a wider tolerance accepts no less (`Matches.mono`). What is no number is accepted by none (`Matches.not_isNaN`), and
  any other outcome is accepted by each if it is itself what is expected (`matches_ofOutcome_iff`);
- the status of a result says whether it has a mismatch (`run_status_eq_pass_iff`). A report counts the fixtures that are
  as expected and the others (`counts_ofFixtures`, `passed_ofFixtures`), and lists the results of the others
  (`failures_ofFixtures`). These numbers decide whether it is accepted (`Counts.enforceGreen_eq_ok_iff`).
-/

namespace SeriesFormula

open Decimal

/-! ## Outcomes -/

/-- A number that equals another or differs from it by no more than the tolerance. -/
def Within (tolerance actual expected : Float) : Prop := actual == expected ∨ (actual - expected).abs ≤ tolerance

/-- An observation of the expected date. Its value is missing if the expected one is, and is within the tolerance of it
otherwise. -/
structure Observation.Matches (tolerance : Float) (actual expected : Observation Float) : Prop where
  date : actual.date = expected.date
  value : Option.Rel (Within tolerance) actual.value expected.value

/-- What comes of a formula. -/
abbrev Outcome := Except (FormulaError Float) (Value Float)

/-- The numbers of an outcome. -/
def Outcome.numbers : Outcome → List Float
  | .error _ => []
  | .ok (.scalar x) => [x]
  | .ok (.series s) => s.observations.filterMap (·.value)

namespace Expected

/-- Outcomes that are as expected. -/
inductive Matches (tolerance : Float) : Expected → Outcome → Prop
  | error (e : FormulaError Float) : Matches tolerance (.error e.kind) (.error e)
  | scalar {expected actual : Float} : Within tolerance actual expected →
      Matches tolerance (.scalar expected) (.ok (.scalar actual))
  | series {expected : List (Observation Float)} {actual : Series Float} :
      List.Forall₂ (Observation.Matches tolerance) actual.observations expected →
      Matches tolerance (.series expected) (.ok (.series actual))

/-- An outcome as what is expected. -/
def ofOutcome : Outcome → Expected
  | .error e => .error e.kind
  | .ok (.scalar x) => .scalar x
  | .ok (.series s) => .series s.observations

end Expected

/-! ## What is compared -/

section Compare

variable {tolerance wider a b : Float}

theorem Fixture.agree_iff : agree tolerance a b ↔ Within tolerance a b := by
  rw [agree, Bool.or_eq_true, decide_eq_true_eq, Within]

theorem Within.mono (h : Within tolerance a b) (hle : tolerance ≤ wider) : Within wider a b :=
  h.imp_right fun habs => float_le_trans habs hle

theorem Within.not_isNaN (h : Within tolerance a b) : ¬a.isNaN := by
  rcases h with heq | habs
  · exact not_isNaN_of_beq heq
  · exact fun hnan => not_isNaN_of_le habs (isNaN_abs (isNaN_sub hnan b))

/-- A number is within each tolerance of itself, even if that is negative. -/
theorem within_self_iff : Within tolerance a a ↔ ¬a.isNaN :=
  ⟨Within.not_isNaN, fun h => .inl (beq_self_iff.2 h)⟩

theorem Fixture.valuesAgree_iff {a b : Option Float} :
    valuesAgree tolerance a b ↔ Option.Rel (Within tolerance) a b := by
  cases a with
  | none => cases b <;> simp [valuesAgree]
  | some x =>
    cases b with
    | none => simp [valuesAgree]
    | some y => rw [valuesAgree, agree_iff, Option.rel_some_some]

theorem Fixture.observationMismatch?_eq_none_iff {position : ℕ} {actual expected : Observation Float} :
    observationMismatch? tolerance position actual expected = none ↔ actual.Matches tolerance expected := by
  unfold observationMismatch?
  split
  · rename_i hdate
    exact iff_of_false nofun fun h => hdate h.date
  · rename_i hdate
    split
    · rename_i hvalue
      exact iff_of_true rfl ⟨not_not.1 hdate, valuesAgree_iff.1 hvalue⟩
    · rename_i hvalue
      exact iff_of_false nofun fun h => hvalue (valuesAgree_iff.2 h.value)

/-- The walk over pairs, behind the comparison of the lengths, leaves out no observation. -/
theorem Fixture.seriesMismatch?_eq_none_iff {actual : Series Float} {expected : List (Observation Float)} :
    seriesMismatch? tolerance actual expected = none ↔
      List.Forall₂ (Observation.Matches tolerance) actual.observations expected := by
  rw [List.forall₂_iff_zip]
  unfold seriesMismatch?
  split
  · rename_i hlength
    exact iff_of_false nofun fun h => hlength h.1
  · rename_i hlength
    rw [List.findSome?_eq_none_iff]
    simp only [observationMismatch?_eq_none_iff]
    constructor
    · intro h
      refine ⟨not_not.1 hlength, fun {a b} hpair => ?_⟩
      rw [← List.zipIdx_map_fst 0 (actual.observations.zip expected)] at hpair
      obtain ⟨⟨⟨a', b'⟩, position⟩, hmem, heq⟩ := List.mem_map.1 hpair
      cases heq
      exact h _ hmem
    · rintro ⟨-, h⟩ ⟨⟨a, b⟩, position⟩ hmem
      exact h (List.fst_mem_of_mem_zipIdx hmem)

/-- **No mismatch is found exactly if the outcome is as expected.** -/
theorem Fixture.mismatch?_eq_none_iff {expected : Expected} {outcome : Outcome} :
    mismatch? tolerance expected outcome = none ↔ expected.Matches tolerance outcome := by
  cases outcome with
  | error error =>
    cases expected with
    | error kind =>
      rw [mismatch?]
      split
      · rename_i hkind
        subst hkind
        exact iff_of_true rfl (.error error)
      · rename_i hkind
        refine iff_of_false nofun fun h => hkind ?_
        cases h
        rfl
    | scalar _ => exact iff_of_false nofun nofun
    | series _ => exact iff_of_false nofun nofun
  | ok value =>
    cases expected with
    | error _ => cases value <;> exact iff_of_false nofun nofun
    | scalar expected =>
      cases value with
      | scalar actual =>
        rw [mismatch?]
        split
        · rename_i hagree
          exact iff_of_true rfl (.scalar (agree_iff.1 hagree))
        · rename_i hagree
          refine iff_of_false nofun fun h => hagree ?_
          cases h with
          | scalar h => exact agree_iff.2 h
      | series _ => exact iff_of_false nofun nofun
    | series expected =>
      cases value with
      | scalar _ => exact iff_of_false nofun nofun
      | series actual =>
        rw [mismatch?, seriesMismatch?_eq_none_iff]
        refine ⟨.series, fun h => ?_⟩
        cases h with
        | series h => exact h

end Compare

/-! ## Tolerances and expectations -/

section Expectations

variable {tolerance wider : Float} {expected : Expected} {outcome : Outcome}

theorem Observation.Matches.mono {a b : Observation Float} (h : a.Matches tolerance b) (hle : tolerance ≤ wider) :
    a.Matches wider b := by
  obtain ⟨hdate, hvalue⟩ := h
  refine ⟨hdate, ?_⟩
  generalize a.value = x, b.value = y at hvalue ⊢
  cases hvalue with
  | some hwithin => exact .some (hwithin.mono hle)
  | none => exact .none

theorem Observation.Matches.not_isNaN {a b : Observation Float} (h : a.Matches tolerance b) {x : Float}
    (hx : a.value = some x) : ¬x.isNaN := by
  have hvalue := h.value
  rw [hx] at hvalue
  generalize b.value = y at hvalue
  cases hvalue with
  | some hwithin => exact hwithin.not_isNaN

theorem Observation.matches_self_iff {a : Observation Float} :
    a.Matches tolerance a ↔ ∀ x, a.value = some x → ¬x.isNaN := by
  refine ⟨fun h _ hx => h.not_isNaN hx, fun h => ⟨rfl, ?_⟩⟩
  cases hvalue : a.value with
  | none => exact .none
  | some x => exact .some (within_self_iff.2 (h x hvalue))

/-- **A wider tolerance accepts no less.** -/
theorem Expected.Matches.mono (h : expected.Matches tolerance outcome) (hle : tolerance ≤ wider) :
    expected.Matches wider outcome := by
  cases h with
  | error e => exact .error e
  | scalar h => exact .scalar (h.mono hle)
  | series h => exact .series (h.imp fun _ _ hmatches => hmatches.mono hle)

/-- **What is no number is never as expected.** -/
theorem Expected.Matches.not_isNaN (h : expected.Matches tolerance outcome) : ∀ x ∈ outcome.numbers, ¬x.isNaN := by
  cases h with
  | error e => exact List.forall_mem_nil _
  | scalar h => exact List.forall_mem_singleton.2 h.not_isNaN
  | series h =>
    intro x hx
    obtain ⟨a, ha, hvalue⟩ := List.mem_filterMap.1 hx
    obtain ⟨i, hi, rfl⟩ := List.mem_iff_getElem.1 ha
    exact (h.get hi (h.length_eq ▸ hi)).not_isNaN hvalue

/-- **An outcome without such a number is as expected if it is itself expected.** -/
theorem Expected.matches_ofOutcome_iff :
    (Expected.ofOutcome outcome).Matches tolerance outcome ↔ ∀ x ∈ outcome.numbers, ¬x.isNaN := by
  refine ⟨Matches.not_isNaN, fun h => ?_⟩
  cases outcome with
  | error e => exact .error e
  | ok value =>
    cases value with
    | scalar x => exact .scalar (within_self_iff.2 (h x (List.mem_singleton_self x)))
    | series s =>
      refine .series (List.forall₂_same.2 fun a ha => Observation.matches_self_iff.2 fun x hx => ?_)
      exact h x (List.mem_filterMap.2 ⟨a, ha, hx⟩)

end Expectations

/-! ## Fixtures and reports -/

theorem CaseResult.fails_iff {result : CaseResult} : result.status == .fail ↔ ¬result.passes := by
  rw [passes]
  cases result.status <;> decide

namespace Fixture

/-- What comes of the formula. -/
def outcome (fixture : Fixture) : Outcome :=
  (Engine.standard.run fixture.formula fixture.evalContext.store).result

/-- The tolerance of the comparison. -/
def usedTolerance (fixture : Fixture) : Float := fixture.tolerance.getD defaultTolerance

/-- Whether what comes of the formula is as expected. -/
def AsExpected (fixture : Fixture) : Prop := fixture.expected.Matches fixture.usedTolerance fixture.outcome

theorem run_mismatch_eq_none_iff {fixture : Fixture} : fixture.run.mismatch = none ↔ fixture.AsExpected :=
  mismatch?_eq_none_iff

/-- The status of a result says whether it has a mismatch. -/
theorem run_status_eq_pass_iff {fixture : Fixture} : fixture.run.status = .pass ↔ fixture.run.mismatch = none := by
  rw [← Option.isNone_iff_eq_none]
  show (if fixture.run.mismatch.isNone then CaseStatus.pass else .fail) = .pass ↔ _
  split
  · rename_i hnone
    exact iff_of_true rfl hnone
  · rename_i hsome
    exact iff_of_false nofun hsome

theorem run_passes_iff {fixture : Fixture} : fixture.run.passes ↔ fixture.AsExpected := by
  rw [CaseResult.passes, beq_iff_eq, run_status_eq_pass_iff, run_mismatch_eq_none_iff]

instance (fixture : Fixture) : Decidable fixture.AsExpected := decidable_of_iff _ run_passes_iff

end Fixture

namespace SuiteReport

/-- The numbers of a report are those of its results. -/
structure Counts (report : SuiteReport) : Prop where
  fixtureCount : report.fixtureCount = report.results.length
  failed : report.failed = report.failures.length
  passed_add_failed : report.passed + report.failed = report.fixtureCount

/-- A report is accepted iff there are results and all of them pass. -/
theorem Counts.enforceGreen_eq_ok_iff {report : SuiteReport} (h : report.Counts) :
    report.enforceGreen = .ok () ↔ report.results ≠ [] ∧ ∀ result ∈ report.results, result.passes := by
  have hgreen : report.isGreen ↔ report.results ≠ [] ∧ ∀ result ∈ report.results, result.passes := by
    rw [isGreen, Bool.and_eq_true, beq_iff_eq, decide_eq_true_eq, and_comm, h.fixtureCount, List.length_pos_iff,
      h.failed, List.length_eq_zero_iff, failures, List.filter_eq_nil_iff]
    simp only [CaseResult.fails_iff, not_not]
  rw [enforceGreen, ← hgreen]
  split
  · rename_i h
    exact iff_of_true rfl h
  · rename_i h
    exact iff_of_false nofun h

variable (suite : String) (fixtures : List Fixture)

theorem counts_ofFixtures : (ofFixtures suite fixtures).Counts where
  fixtureCount := rfl
  failed := List.countP_eq_length_filter
  passed_add_failed := Nat.sub_add_cancel List.countP_le_length

/-- The failures are the results of the fixtures that are not as expected. -/
theorem failures_ofFixtures :
    (ofFixtures suite fixtures).failures = (fixtures.filter fun fixture => ¬fixture.AsExpected).map Fixture.run := by
  show (fixtures.map Fixture.run).filter _ = _
  rw [List.filter_map]
  refine congrArg _ (List.filter_congr fun fixture _ => ?_)
  rw [Function.comp_apply, Bool.eq_iff_iff, CaseResult.fails_iff, Fixture.run_passes_iff, decide_eq_true_iff]

theorem passed_ofFixtures :
    (ofFixtures suite fixtures).passed = (fixtures.filter fun fixture => fixture.AsExpected).length := by
  have hcounts := counts_ofFixtures suite fixtures
  have hfailed : (ofFixtures suite fixtures).failed =
      (fixtures.filter fun fixture => !decide fixture.AsExpected).length := by
    rw [hcounts.failed, failures_ofFixtures, List.length_map]
    simp only [decide_not]
  have hall : (ofFixtures suite fixtures).fixtureCount = fixtures.length := List.length_map _
  refine Nat.add_right_cancel (hcounts.passed_add_failed.trans ?_)
  rw [hfailed, hall]
  exact List.length_eq_length_filter_add fun fixture : Fixture => decide fixture.AsExpected

end SuiteReport

namespace Fixture

/-- **Verdicts on fixtures and reports.** A fixture passes, and has no mismatch then, iff what comes of its formula is as
expected: an error of the kind, a number within the tolerance, or observations of the same dates with values that are
missing in the same places and within the tolerance in the others. It still passes with a wider tolerance. If it expects
just what comes of the formula, it passes with any tolerance unless there is something that is no number, and with that
it never passes. The report of fixtures counts those that are as expected and the others, has the results of the others
as its failures, and is accepted iff it has a result and all of them pass. -/
theorem verdict_asExpected (fixture : Fixture) (suite : String) (fixtures : List Fixture) :
    ((fixture.run.passes ↔ fixture.run.mismatch = none) ∧
      (fixture.run.mismatch = none ↔ fixture.AsExpected) ∧
      (∀ tolerance : Option Float, fixture.usedTolerance ≤ tolerance.getD defaultTolerance → fixture.run.passes →
        { fixture with tolerance := tolerance }.run.passes) ∧
      (∀ tolerance : Option Float,
        { fixture with expected := .ofOutcome fixture.outcome, tolerance := tolerance }.run.passes ↔
          ∀ x ∈ fixture.outcome.numbers, ¬x.isNaN) ∧
      ¬(fixture.run.passes ∧ ∃ x ∈ fixture.outcome.numbers, x.isNaN)) ∧
    ((SuiteReport.ofFixtures suite fixtures).results = fixtures.map run ∧
      (SuiteReport.ofFixtures suite fixtures).fixtureCount = (SuiteReport.ofFixtures suite fixtures).results.length ∧
      (SuiteReport.ofFixtures suite fixtures).passed + (SuiteReport.ofFixtures suite fixtures).failed =
        (SuiteReport.ofFixtures suite fixtures).fixtureCount ∧
      (SuiteReport.ofFixtures suite fixtures).passed = (fixtures.filter fun f => f.AsExpected).length ∧
      (SuiteReport.ofFixtures suite fixtures).failures = (fixtures.filter fun f => ¬f.AsExpected).map run ∧
      ((SuiteReport.ofFixtures suite fixtures).enforceGreen = .ok () ↔
        (SuiteReport.ofFixtures suite fixtures).results ≠ [] ∧
          ∀ result ∈ (SuiteReport.ofFixtures suite fixtures).results, result.passes)) := by
  have hcounts := SuiteReport.counts_ofFixtures suite fixtures
  refine ⟨⟨run_passes_iff.trans run_mismatch_eq_none_iff.symm, run_mismatch_eq_none_iff,
    fun tolerance hle hpasses => ?_, fun tolerance => ?_, ?_⟩, rfl, hcounts.fixtureCount, hcounts.passed_add_failed,
    SuiteReport.passed_ofFixtures suite fixtures, SuiteReport.failures_ofFixtures suite fixtures,
    hcounts.enforceGreen_eq_ok_iff⟩
  · exact run_passes_iff.2 ((run_passes_iff.1 hpasses).mono hle)
  · exact run_passes_iff.trans Expected.matches_ofOutcome_iff
  · rintro ⟨hpasses, x, hx, hnan⟩
    exact (run_passes_iff.1 hpasses).not_isNaN x hx hnan

/-- A fixture that expects a number as far from the actual one as the tolerance. -/
def near : Fixture := ⟨"near", "1", ∅, .scalar 1.25, some 0.25⟩

/-- It passes with a wider tolerance, and with a negative one if it expects the actual number. -/
theorem verdict_asExpected_near :
    near.usedTolerance ≤ (some 0.5 : Option Float).getD defaultTolerance ∧ near.run.passes ∧
      { near with tolerance := some 0.5 }.run.passes ∧
      (∀ x ∈ near.outcome.numbers, ¬x.isNaN) ∧
      { near with expected := .ofOutcome near.outcome, tolerance := some (-1) }.run.passes ∧
      (SuiteReport.ofFixtures "one" [near]).enforceGreen = .ok () := by
  have hle : near.usedTolerance ≤ (some 0.5 : Option Float).getD defaultTolerance := by decide +kernel
  have hpasses : near.run.passes := by decide +kernel
  obtain ⟨⟨-, -, hmono, hown, -⟩, -, -, -, -, -, hgreen⟩ := verdict_asExpected near "one" [near]
  have hnumbers := (run_passes_iff.1 hpasses).not_isNaN
  exact ⟨hle, hpasses, hmono (some 0.5) hle hpasses, hnumbers, (hown (some (-1))).2 hnumbers,
    hgreen.2 ⟨List.cons_ne_nil _ _, List.forall_mem_singleton.2 hpasses⟩⟩

end Fixture

end SeriesFormula
