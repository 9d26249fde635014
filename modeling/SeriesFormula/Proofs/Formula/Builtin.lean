import SeriesFormula.Proofs.Formula.Call
import SeriesFormula.Proofs.Formula.Evaluation
import SeriesFormula.Proofs.Formula.Registry
import SeriesFormula.Proofs.Result
import SeriesFormula.Proofs.Statistics.Pointwise

/-!
# Tables of built-in functions

The functions of a table may have any names (`Registry.IsBuiltin`), but each is computed like one of the built-in ones
and so from the present values of its series only (`Implementation.OfPresent`). A series that such a function gives is
a pointwise one of its first argument (`FunctionSpec.exists_of_call_eq_series`, `Expr.exists_first_of_call`).
-/

namespace SeriesFormula

variable {α : Type}

/-- The function depends on the present values of its series, and a series that it gives is pointwise. -/
def Implementation.OfPresent : Implementation α → Prop
  | aggregate f => ∀ s s', s.numbers = s'.numbers → f s = f s'
  | indicator f => ∀ p, Statistics.Pointwise fun s => f s p
  | pairwise f => ∀ s s' t t', s.numbers = s'.numbers → t.numbers = t'.numbers → f s t = f s' t'
  | transform f => Statistics.Pointwise f

/-- A series from a function stands at its first argument. -/
theorem FunctionSpec.exists_of_call_eq_series [Number α] {spec : FunctionSpec α} (hspec : spec.implementation.OfPresent)
    {values : List (Value α)} {r : Series α} (h : spec.call values = .ok (.series r)) :
    ∃ s rest F, values = .series s :: rest ∧ Statistics.Pointwise F ∧ r = F s := by
  have hlen : values.length = spec.arity := by
    by_contra hne
    rw [call_of_length_ne hne] at h
    cases h
  obtain ⟨name, summary, implementation⟩ := spec
  cases implementation with
  | aggregate f =>
    obtain ⟨v, rfl⟩ := List.length_eq_one_iff.1 hlen
    cases v <;> cases h
  | pairwise f =>
    obtain ⟨v, w, rfl⟩ := List.length_eq_two.1 hlen
    cases v <;> cases w <;> cases h
  | transform f =>
    obtain ⟨v, rfl⟩ := List.length_eq_one_iff.1 hlen
    cases v with
    | scalar x => cases h
    | series s =>
      cases h
      exact ⟨s, [], f, rfl, hspec, rfl⟩
  | indicator f =>
    obtain ⟨v, w, rfl⟩ := List.length_eq_two.1 hlen
    cases v with
    | scalar x => cases h
    | series s =>
      cases w with
      | series t => cases h
      | scalar x =>
        rw [call_indicator] at h
        split at h
        next p _ =>
          cases h
          exact ⟨s, [.scalar x], fun s => f s p, rfl, hspec p, rfl⟩
        next => cases h

variable [Number α]

/-- The built-in functions depend on the present values of their series only. -/
theorem ofPresent_of_mem_builtinFunctions : ∀ spec ∈ builtinFunctions (α := α), spec.implementation.OfPresent := by
  simp only [builtinFunctions, List.forall_mem_cons]
  refine ⟨?sum, ?mean, ?least, ?greatest, ?count, ?roc, ?ma, ?rsi, ?momentum, ?correlation, ?regression, nofun⟩
  case sum => exact fun _ _ => Statistics.sum_congr
  case mean => exact fun _ _ => Statistics.mean_congr
  case least => exact fun _ _ => Statistics.least_congr
  case greatest => exact fun _ _ => Statistics.greatest_congr
  case count => exact fun _ _ => Statistics.count_congr
  case roc => exact Statistics.pointwise_rateOfChange
  case ma => exact Statistics.pointwise_movingAverage
  case rsi => exact Statistics.pointwise_strengthIndex
  case momentum => exact Statistics.pointwise_momentum
  case correlation => exact fun _ _ _ _ => Statistics.correlation_congr
  case regression => exact Statistics.pointwise_regression

namespace Registry

/-- Each function of the table is computed like a built-in one, whatever its name is. -/
def IsBuiltin (registry : Registry α) : Prop :=
  ∀ name spec, registry.get? name = some spec → ∃ b ∈ builtinFunctions, spec.implementation = b.implementation

theorem IsBuiltin.ofPresent {registry : Registry α} (h : registry.IsBuiltin) {name : String} {spec : FunctionSpec α}
    (hspec : registry.get? name = some spec) : spec.implementation.OfPresent := by
  obtain ⟨b, hb, himplementation⟩ := h name spec hspec
  rw [himplementation]
  exact ofPresent_of_mem_builtinFunctions b hb

theorem isBuiltin_builtin : (builtin : Registry α).IsBuiltin := by
  intro name spec hspec
  exact ⟨spec, (of_get?_ofList hspec).1, rfl⟩

end Registry

/-- A series from a call is a pointwise one of the series that its first argument is. -/
theorem Expr.exists_first_of_call {env : Environment α} (hregistry : env.registry.IsBuiltin) {depth : Nat}
    {name : String} {args : List (Expr α)} {r : Series α}
    (h : ((call name args).evaluateAt env depth).result = .ok (.series r)) :
    ∃ e es s F, args = e :: es ∧ (e.evaluateAt env (depth + 1)).result = .ok (.series s) ∧
      Statistics.Pointwise F ∧ r = F s := by
  obtain ⟨spec, values, hspec, hargs, hcall⟩ := exists_of_evaluateAt_call h
  obtain ⟨s, rest, F, rfl, hF, rfl⟩ := FunctionSpec.exists_of_call_eq_series (hregistry.ofPresent hspec) hcall
  cases hargs with
  | cons hfirst _ => exact ⟨_, _, s, F, rfl, hfirst, hF, rfl⟩

end SeriesFormula
