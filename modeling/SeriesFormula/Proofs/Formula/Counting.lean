import SeriesFormula.Proofs.Formula.Builtin
import SeriesFormula.Proofs.Formula.Limits

/-!
# How far records count

A record says how deep its call is and, if that ends with a series, how long the series is. Where the limit on the
depth, the series of the store and those that functions make of such series stay within a bound
(`Environment.CountsTo`), both numbers do so in all records of an evaluation: one call keeps to the bound
(`Evaluation.Counts.apply`), and so does an expression, by induction (`Expr.counts_evaluateAt`). The built-in functions
make no series longer (`Registry.IsBuiltin.countsTo_of_call`).

`Ledger.ofRuns` is the ledger of formulas that are run one after the other; it holds the records of each
(`Ledger.records_ofRuns`).
-/

namespace SeriesFormula

variable {α : Type} {n : ℕ}

/-- A series is at most `n` long. -/
def Value.CountsTo (n : ℕ) : Value α → Prop
  | scalar _ => True
  | series s => s.length ≤ n

/-- The length of a series that is recorded is at most `n`. -/
def CallOutcome.CountsTo (n : ℕ) : CallOutcome α → Prop
  | series length => length ≤ n
  | _ => True

/-- No number of a record is above `n`. -/
def CallRecord.CountsTo (n : ℕ) (record : CallRecord α) : Prop := record.depth ≤ n ∧ record.outcome.CountsTo n

/-- Calls are at most `n` deep, and no series in the store or from a function is longer than `n`. -/
structure Environment.CountsTo [Number α] (env : Environment α) (n : ℕ) : Prop where
  depth : env.policy.maxDepth ≤ n
  store : ∀ id s, env.store id = some s → s.length ≤ n
  call : ∀ name spec, env.registry.get? name = some spec → ∀ values, (∀ v ∈ values, v.CountsTo n) →
    ∀ v, spec.call values = .ok v → v.CountsTo n

/-! ## Evaluations -/

/-- The value of an evaluation has a property, and its records keep to the bound. -/
structure Evaluation.Counts {β : Type} (n : ℕ) (P : β → Prop) (x : Evaluation α β) : Prop where
  value : ∀ v, x.result = .ok v → P v
  records : ∀ record ∈ x.records, record.CountsTo n

theorem Evaluation.Counts.of_error {β : Type} {P : β → Prop} (error : FormulaError α) {records : List (CallRecord α)}
    (h : ∀ record ∈ records, record.CountsTo n) : Evaluation.Counts n P ⟨.error error, records⟩ := ⟨nofun, h⟩

section Steps

variable [Number α] {env : Environment α}

theorem CallOutcome.countsTo_ofResult {result : Except (FormulaError α) (Value α)}
    (h : ∀ v, result = .ok v → v.CountsTo n) : (CallOutcome.ofResult result).CountsTo n := by
  cases result with
  | error error => trivial
  | ok v =>
    cases v with
    | scalar x => trivial
    | series s => exact h _ rfl

/-- **One call**, behind the evaluation of its arguments. -/
theorem Evaluation.Counts.apply (henv : env.CountsTo n) {args : Evaluation α (List (Value α))}
    (h : args.Counts n fun values => ∀ v ∈ values, v.CountsTo n) {depth : ℕ} (hdepth : depth ≤ n) (name : String) :
    (env.apply depth name args).Counts n (Value.CountsTo n) := by
  obtain ⟨result, records⟩ := args
  cases result with
  | error error => exact .of_error error h.records
  | ok values =>
    cases hget : env.registry.get? name with
    | none =>
      rw [Environment.apply_of_none depth hget]
      exact .of_error _ h.records
    | some spec =>
      have hcall := henv.call name spec hget values (h.value values rfl)
      rw [Environment.apply_of_some depth hget]
      refine ⟨hcall, List.forall_mem_append.2 ⟨h.records, List.forall_mem_singleton.2 ⟨hdepth, ?_⟩⟩⟩
      exact CallOutcome.countsTo_ofResult hcall

end Steps

namespace Expr

variable [Number α] {env : Environment α}

mutual

/-- **An evaluation keeps to the bound.** -/
theorem counts_evaluateAt (henv : env.CountsTo n) : ∀ (depth : ℕ) (e : Expr α),
    (e.evaluateAt env depth).Counts n (Value.CountsTo n)
  | _, .literal value => by
    rw [evaluateAt]
    exact ⟨fun _ h => by cases h; trivial, List.forall_mem_nil _⟩
  | _, .identifier name => by
    rw [evaluateAt]
    cases hstore : env.store (Text.lower name) with
    | none => exact .of_error _ (List.forall_mem_nil _)
    | some s =>
      refine ⟨fun _ h => ?_, List.forall_mem_nil _⟩
      cases h
      exact henv.store _ s hstore
  | depth, .call name args => by
    rw [evaluateAt_call]
    split
    · exact .of_error _ (List.forall_mem_nil _)
    · have hdepth := henv.depth
      exact (counts_evaluateArguments henv (depth + 1) args).apply henv (by omega) name

theorem counts_evaluateArguments (henv : env.CountsTo n) : ∀ (depth : ℕ) (es : List (Expr α)),
    (evaluateArguments env depth es).Counts n fun values => ∀ v ∈ values, v.CountsTo n
  | _, [] => by
    rw [evaluateArguments]
    exact ⟨fun _ h => by cases h; exact List.forall_mem_nil _, List.forall_mem_nil _⟩
  | depth, e :: es => by
    have hfirst := counts_evaluateAt henv depth e
    have hrest := counts_evaluateArguments henv depth es
    rw [evaluateArguments]
    generalize e.evaluateAt env depth = first at hfirst
    obtain ⟨result, records⟩ := first
    cases result with
    | error error => exact .of_error error hfirst.records
    | ok value =>
      refine ⟨fun values h => ?_, List.forall_mem_append.2 ⟨hfirst.records, hrest.records⟩⟩
      obtain ⟨others, hothers, rfl⟩ := map_eq_ok_iff.1 h
      exact List.forall_mem_cons.2 ⟨hfirst.value value rfl, hrest.value others hothers⟩

end

end Expr

/-! ## Built-in functions -/

theorem Statistics.Pointwise.length_le {F : Series α → Series α} (h : Statistics.Pointwise F) (s : Series α) :
    (F s).length ≤ s.length := by
  have hlabels : (F s).index.labels.length ≤ s.present.index.labels.length := (h.labels s).length_le
  rw [Series.index, List.length_map, Series.index, List.length_map] at hlabels
  exact Nat.le_trans hlabels (List.length_filter_le _ _)

/-- No series from a built-in function is longer than its arguments. -/
theorem Registry.IsBuiltin.countsTo_of_call [Number α] {registry : Registry α} (h : registry.IsBuiltin) (name : String)
    (spec : FunctionSpec α) (hspec : registry.get? name = some spec) (values : List (Value α))
    (hvalues : ∀ v ∈ values, v.CountsTo n) (v : Value α) (hv : spec.call values = .ok v) : v.CountsTo n := by
  cases v with
  | scalar x => trivial
  | series r =>
    obtain ⟨s, rest, F, rfl, hF, rfl⟩ := FunctionSpec.exists_of_call_eq_series (h.ofPresent hspec) hv
    have hs : s.length ≤ n := hvalues (.series s) List.mem_cons_self
    exact Nat.le_trans (hF.length_le s) hs

/-! ## Runs -/

/-- A formula, what it is run with and the data. -/
structure Run where
  engine : Engine
  formula : String
  store : Store Float

/-- What the formula of a run is evaluated in. -/
def Run.environment (run : Run) : Environment Float := ⟨run.store, run.engine.registry, run.engine.policy⟩

/-- The value of a run and the records of its calls. -/
def Run.evaluation (run : Run) : Evaluation Float (Value Float) := run.engine.run run.formula run.store

/-- The records of a formula that is read are those of its expression. -/
theorem Run.records_evaluation {engine : Engine} {formula : String} {e : Expr Float}
    (h : engine.parse formula = .ok e) (store : Store Float) :
    (Run.mk engine formula store).evaluation.records =
      (e.evaluate ⟨store, engine.registry, engine.policy⟩).records :=
  congrArg Evaluation.records (Engine.run_of_parse_eq_ok h)

/-- The records of a run keep to the bound. -/
theorem Run.countsTo {run : Run} (h : run.environment.CountsTo n) :
    ∀ record ∈ run.evaluation.records, record.CountsTo n := by
  cases hparse : run.engine.parse run.formula with
  | error error =>
    rw [evaluation, Engine.run_of_parse_eq_error hparse]
    exact List.forall_mem_nil _
  | ok e =>
    rw [records_evaluation hparse]
    exact (Expr.counts_evaluateAt h 0 e).records

namespace Ledger

/-- The ledger of formulas that are run one after the other. -/
def ofRuns (runs : List Run) : Ledger Float :=
  runs.foldl (fun ledger run => (run.engine.runInto run.formula run.store ledger).2) empty

/-- A ledger of runs holds the records of each, in order. -/
theorem records_ofRuns (runs : List Run) : (ofRuns runs).records = runs.flatMap (·.evaluation.records) := by
  have hfoldl : ∀ ledger : Ledger Float,
      runs.foldl (fun ledger run => (run.engine.runInto run.formula run.store ledger).2) ledger =
        ledger.append (runs.flatMap (·.evaluation.records)) := by
    induction runs with
    | nil => exact fun ledger => ledger.append_nil.symm
    | cons run runs ih =>
      intro ledger
      rw [List.foldl_cons, ih, Engine.runInto_eq, append_append, List.flatMap_cons]
      rfl
  rw [ofRuns, hfoldl]
  rfl

/-- The records of runs that keep to a bound keep to it. -/
theorem countsTo_ofRuns {runs : List Run} (h : ∀ run ∈ runs, run.environment.CountsTo n) :
    ∀ record ∈ (ofRuns runs).records, record.CountsTo n := by
  intro record hrecord
  rw [records_ofRuns, List.mem_flatMap] at hrecord
  obtain ⟨run, hrun, hrecord⟩ := hrecord
  exact run.countsTo (h run hrun) record hrecord

end Ledger

end SeriesFormula
