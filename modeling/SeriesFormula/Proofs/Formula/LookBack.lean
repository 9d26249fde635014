import SeriesFormula.Proofs.Formula.Call
import SeriesFormula.Proofs.Formula.Evaluation
import SeriesFormula.Proofs.Formula.Registry
import SeriesFormula.Proofs.Statistics.LookBack

/-!
# Formulas of indicators look back

A chain of indicators (`Expr.IsIndicatorChain`) gives for series that are cut at a day what it gives for the whole
series, cut at that day, or the same error (`evaluate_within_upTo`): observations that come later do not change the
values that there are. One call keeps the two runs together (`CutAt.call`), and the chain is followed by induction.
-/

namespace SeriesFormula

variable {α : Type}

/-- The series of a store, each cut to a range. -/
def Store.within (store : Store α) (range : DateRange) : Store α := fun id => (store id).map (·.within range)

/-- A series cut to a range; numbers stay. -/
def Value.within (range : DateRange) : Value α → Value α
  | scalar x => scalar x
  | series s => series (s.within range)

namespace Expr

/-- The names of the indicators. -/
def indicatorNames : List String := ["ROC", "MA", "RSI", "MOMENTUM"]

/-- One identifier inside of any number of indicators, each with a literal for its number of periods. -/
inductive IsIndicatorChain : Expr α → Prop
  | identifier (name : String) : IsIndicatorChain (.identifier name)
  | call {name : String} {e : Expr α} (periods : α) :
      name ∈ indicatorNames → IsIndicatorChain e → IsIndicatorChain (.call name [e, .literal periods])

end Expr

/-! ## The built-in indicators -/

variable [Number α]

/-- The indicators are built in, and each looks back. -/
theorem exists_indicator {name : String} (h : name ∈ Expr.indicatorNames) :
    ∃ (summary : String) (f : Series α → Nat → Series α),
      Registry.builtin.get? name = some ⟨name, summary, .indicator f⟩ ∧
        ∀ p, Statistics.LooksBack fun s => f s p := by
  simp only [Registry.builtin, Registry.get?_ofList]
  simp only [Expr.indicatorNames, List.mem_cons, List.not_mem_nil, or_false] at h
  obtain rfl | rfl | rfl | rfl := h
  · exact ⟨_, _, rfl, Statistics.looksBack_rateOfChange⟩
  · exact ⟨_, _, rfl, Statistics.looksBack_movingAverage⟩
  · exact ⟨_, _, rfl, Statistics.looksBack_strengthIndex⟩
  · exact ⟨_, _, rfl, Statistics.looksBack_momentum⟩

/-! ## Two runs -/

/-- The results of a run and of the run on the series that are cut at a day: a chronological series and the same series
cut at the day, or one error. -/
inductive CutAt (stop : Date) : Except (FormulaError α) (Value α) → Except (FormulaError α) (Value α) → Prop
  | series {s : Series α} : s.index.Chronological → CutAt stop (.ok (.series s)) (.ok (.series (s.within (.upTo stop))))
  | error (error : FormulaError α) : CutAt stop (.error error) (.error error)

variable {stop : Date} {whole cut : Except (FormulaError α) (Value α)}

omit [Number α] in
theorem CutAt.eq_map (h : CutAt stop whole cut) : cut = whole.map (Value.within (.upTo stop)) := by
  cases h <;> rfl

/-- **One call** of an indicator keeps the runs together. -/
theorem CutAt.call {name summary : String} {f : Series α → Nat → Series α} (x : α)
    (hf : ∀ p, Statistics.LooksBack fun s => f s p) (h : CutAt stop whole cut) :
    CutAt stop (whole.bind fun v => FunctionSpec.call ⟨name, summary, .indicator f⟩ [v, .scalar x])
      (cut.bind fun v => FunctionSpec.call ⟨name, summary, .indicator f⟩ [v, .scalar x]) := by
  cases h with
  | error error => exact .error error
  | @series s hs =>
    dsimp only [Except.bind]
    rw [FunctionSpec.call_indicator, FunctionSpec.call_indicator]
    cases periods? x with
    | none => exact .error _
    | some p =>
      dsimp only
      rw [(hf p).within hs]
      exact .series ((hf p).chronological hs)

namespace Expr

variable (policy : Policy) {store : Store α}

/-- A call with a literal behind its first argument. -/
theorem result_evaluateAt_call_literal (env : Environment α) {name : String} {spec : FunctionSpec α}
    (h : env.registry.get? name = some spec) (depth : Nat) (e : Expr α) (x : α) :
    ((call name [e, .literal x]).evaluateAt env depth).result =
      if env.policy.maxDepth ≤ depth then .error (.limit (.depth env.policy.maxDepth))
      else (e.evaluateAt env (depth + 1)).result.bind fun v => spec.call [v, .scalar x] := by
  rw [evaluateAt_call]
  split
  · rfl
  · rw [Environment.result_apply, result_evaluateArguments_cons, h]
    cases (e.evaluateAt env (depth + 1)).result <;> rfl

/-- **The two runs of a chain.** -/
theorem IsIndicatorChain.cutAt (hstore : ∀ id s, store id = some s → s.index.Chronological) {e : Expr α}
    (he : e.IsIndicatorChain) (stop : Date) (depth : Nat) :
    CutAt stop (e.evaluateAt ⟨store, .builtin, policy⟩ depth).result
      (e.evaluateAt ⟨store.within (.upTo stop), .builtin, policy⟩ depth).result := by
  induction he generalizing depth with
  | identifier name =>
    rw [evaluateAt, evaluateAt]
    dsimp only [Store.within]
    cases hs : store (Text.lower name) with
    | none => exact .error _
    | some s => exact .series (hstore _ s hs)
  | call x hname _ ih =>
    obtain ⟨summary, f, hspec, hf⟩ := exists_indicator (α := α) hname
    rw [result_evaluateAt_call_literal ⟨store, .builtin, policy⟩ hspec,
      result_evaluateAt_call_literal ⟨store.within _, .builtin, policy⟩ hspec]
    dsimp only
    split
    · exact .error _
    · exact (ih (depth + 1)).call x hf

/-- **No value depends on what comes later.** A chain of indicators gives for series with chronological labels that are
cut at a day what it gives for the whole series, cut at that day, or the same error. -/
theorem evaluate_within_upTo (hstore : ∀ id s, store id = some s → s.index.Chronological) {e : Expr α}
    (he : e.IsIndicatorChain) (stop : Date) :
    (e.evaluate ⟨store.within (.upTo stop), .builtin, policy⟩).result =
      (e.evaluate ⟨store, .builtin, policy⟩).result.map (Value.within (.upTo stop)) :=
  (he.cutAt policy hstore stop 0).eq_map

/-- A rate of change of a mean, over a series with a missing value; the last of its two values is cut. -/
theorem evaluate_within_upTo_nested :
    let s : Series Float := ⟨"gdp", [⟨"2020-01-01", some 1⟩, ⟨"2020-02-01", none⟩, ⟨"2020-03-01", some 3⟩,
      ⟨"2020-04-01", some 6⟩, ⟨"2020-05-01", some 2⟩]⟩
    let store : Store Float := fun id => if id = "gdp" then some s else none
    let e : Expr Float := .call "ROC" [.call "MA" [.identifier "GDP", .literal 2], .literal 1]
    let stop : Date := ⟨2020, 4, 30, by decide⟩
    (∀ id t, store id = some t → t.index.Chronological) ∧ e.IsIndicatorChain ∧
      (e.evaluate ⟨store, .builtin, .standard⟩).result =
        .ok (.series ⟨"ROC(MA(gdp,2),1)", [⟨"2020-04-01", some 125⟩, ⟨"2020-05-01", some (-11.11111111111111)⟩]⟩) ∧
      (e.evaluate ⟨store.within (.upTo stop), .builtin, .standard⟩).result =
        (e.evaluate ⟨store, .builtin, .standard⟩).result.map (Value.within (.upTo stop)) := by
  intro s store e stop
  have hs : s.index.Chronological :=
    ⟨[⟨2020, 1, 1, by decide⟩, ⟨2020, 2, 1, by decide⟩, ⟨2020, 3, 1, by decide⟩, ⟨2020, 4, 1, by decide⟩,
      ⟨2020, 5, 1, by decide⟩], by decide, by decide⟩
  have hstore : ∀ id t, store id = some t → t.index.Chronological := by
    intro id t ht
    obtain ⟨-, ht⟩ := Option.ite_none_right_eq_some.1 ht
    exact Option.some.inj ht ▸ hs
  have he : e.IsIndicatorChain := .call 1 (by decide) (.call 2 (by decide) (.identifier "GDP"))
  exact ⟨hstore, he, by decide +kernel, evaluate_within_upTo .standard hstore he stop⟩

end Expr

end SeriesFormula
