import SeriesFormula.Proofs.Formula.Call
import SeriesFormula.Proofs.Formula.LookBack
import SeriesFormula.Proofs.Statistics.Scaling

/-!
# Units of formulas

With exact arithmetic, the values of the series that a formula reads may be of any unit: a change of the unit multiplies
them by a positive factor. The degree of the formula (`Expr.degree`) says with which power of the factor its value
changes. Each function takes the unit of its first argument over or has none (`rescales_of_mem_builtinFunctions`), each
call respects that (`FunctionSpec.call_scale`), and the formula is followed by induction (`Expr.evaluate_scale`). The
correlation is left out, since its root is not exact, and a number of periods must have no unit.
-/

namespace SeriesFormula

/-! ## Degrees -/

namespace Expr

variable {α : Type}

/-- The functions whose values have the unit of their first argument. -/
def unitNames : List String := ["SUM", "AVG", "MIN", "MAX", "MA", "MOMENTUM", "REGRESSION"]

mutual

/-- The power of the unit of the series in the value of an expression. -/
def degree : Expr α → ℕ
  | call name args => if name ∈ unitNames then degreeOfFirst args else 0
  | identifier _ => 1
  | literal _ => 0

def degreeOfFirst : List (Expr α) → ℕ
  | [] => 0
  | e :: _ => e.degree

end

mutual

/-- Each call in an expression has a property, which is about the function and its arguments. -/
def EachCall (P : String → List (Expr α) → Prop) : Expr α → Prop
  | call name args => P name args ∧ EachCallOfList P args
  | identifier _ | literal _ => True

def EachCallOfList (P : String → List (Expr α) → Prop) : List (Expr α) → Prop
  | [] => True
  | e :: es => e.EachCall P ∧ EachCallOfList P es

end

/-- The call is of another function than the correlation, and its number of periods, if it takes one, has no unit. -/
def KeepsUnits (name : String) (args : List (Expr α)) : Prop :=
  name ≠ "CORRELATION" ∧ (name ∈ indicatorNames → ∀ periods ∈ args[1]?, periods.degree = 0)

end Expr

/-! ## Values of other units -/

def Value.scale (k : ℚ) : Value ℚ → Value ℚ
  | scalar x => scalar (k * x)
  | series s => series (s.scale k)

/-- The series of a store with each present value multiplied by a factor. -/
def Store.scale (k : ℚ) (store : Store ℚ) : Store ℚ := fun id => (store id).map (Series.scale k)

theorem Value.scale_one (v : Value ℚ) : v.scale 1 = v := by
  cases v with
  | scalar x => exact congrArg scalar (one_mul x)
  | series s => exact congrArg series s.scale_one

/-! ## The built-in functions -/

/-- If the values of its series are multiplied by `k`, those of the function are multiplied by `factor k`. -/
def Implementation.Rescales (factor : ℚ → ℚ) : Implementation ℚ → Prop
  | aggregate f => ∀ k s, 0 < k → f (s.scale k) = factor k * f s
  | indicator f => ∀ k s p, 0 < k → f (s.scale k) p = (f s p).scale (factor k)
  | pairwise _ => False
  | transform f => ∀ k s, 0 < k → f (s.scale k) = (f s).scale (factor k)

/-- The factor of the value of a function whose first argument has the factor `k`. -/
def unitFactor (name : String) (k : ℚ) : ℚ := if name ∈ Expr.unitNames then k else 1

/-- **Each function has the unit of its first argument, or none.** -/
theorem rescales_of_mem_builtinFunctions : ∀ spec ∈ builtinFunctions (α := ℚ), spec.name ≠ "CORRELATION" →
    spec.implementation.Rescales (unitFactor spec.name) := by
  have hunit : ∀ {name : String} (k : ℚ), name ∈ Expr.unitNames → unitFactor name k = k := fun k h => if_pos h
  have hnone : ∀ {name : String} (k : ℚ), name ∉ Expr.unitNames → unitFactor name k = 1 := fun k h => if_neg h
  simp only [builtinFunctions, List.forall_mem_cons]
  refine ⟨?sum, ?mean, ?least, ?greatest, ?count, ?roc, ?ma, ?rsi, ?momentum, ?correlation, ?regression, nofun⟩
  case sum =>
    intro _ k s _
    rw [hunit k (by decide), Statistics.sum_scale]
  case mean =>
    intro _ k s _
    rw [hunit k (by decide), Statistics.mean_scale]
  case least =>
    intro _ k s hk
    rw [hunit k (by decide), Statistics.least_scale hk]
  case greatest =>
    intro _ k s hk
    rw [hunit k (by decide), Statistics.greatest_scale hk]
  case count =>
    intro _ k s _
    rw [hnone k (by decide), Statistics.count_scale, one_mul]
  case roc =>
    intro _ k s p hk
    rw [hnone k (by decide), Statistics.rateOfChange_scale hk, Series.scale_one]
  case ma =>
    intro _ k s p _
    rw [hunit k (by decide), Statistics.movingAverage_scale]
  case rsi =>
    intro _ k s p hk
    rw [hnone k (by decide), Statistics.strengthIndex_scale hk, Series.scale_one]
  case momentum =>
    intro _ k s p _
    rw [hunit k (by decide), Statistics.momentum_scale]
  case correlation => exact fun h => absurd rfl h
  case regression =>
    intro _ k s _
    rw [hunit k (by decide), Statistics.regression_scale]

/-- Only indicators ask for a number. -/
theorem mem_indicatorNames_of_parameters {α : Type} [Number α] : ∀ spec ∈ builtinFunctions (α := α),
    .scalar ∈ spec.implementation.parameters → spec.name ∈ Expr.indicatorNames := by
  simp [builtinFunctions, Implementation.parameters, Expr.indicatorNames]

/-! ## One call -/

/-- **One call** in two units: `units` are the factors of the arguments, of which that of a number of periods is one. -/
theorem FunctionSpec.call_scale {spec : FunctionSpec ℚ} {factor : ℚ → ℚ} (hspec : spec.implementation.Rescales factor)
    {units : List ℚ} {values : List (Value ℚ)} (hlength : units.length = values.length) (hpos : ∀ k ∈ units, 0 < k)
    (hperiods : .scalar ∈ spec.implementation.parameters → ∀ k ∈ units[1]?, k = 1) :
    spec.call (List.zipWith Value.scale units values) =
      (spec.call values).map (Value.scale (factor (units.headD 1))) := by
  by_cases harity : values.length = spec.arity
  · have hunits := hlength.trans harity
    -- the arguments that are no series, or no number, are refused in both units
    obtain ⟨name, summary, implementation⟩ := spec
    cases implementation with
    | aggregate f =>
      obtain ⟨v, rfl⟩ := List.length_eq_one_iff.1 harity
      obtain ⟨k, rfl⟩ := List.length_eq_one_iff.1 hunits
      cases v with
      | scalar x => rfl
      | series s => exact congrArg (fun x => Except.ok (Value.scalar x)) (hspec k s (hpos k (by simp)))
    | indicator f =>
      obtain ⟨v, w, rfl⟩ := List.length_eq_two.1 harity
      obtain ⟨k, u, rfl⟩ := List.length_eq_two.1 hunits
      obtain rfl : u = 1 := hperiods (by simp [Implementation.parameters]) u rfl
      cases v with
      | scalar x => rfl
      | series s =>
        cases w with
        | series t => rfl
        | scalar x =>
          have hs : ∀ p, f (s.scale k) p = (f s p).scale (factor k) := fun p => hspec k s p (hpos k (by simp))
          simp only [List.zipWith_cons_cons, List.zipWith_nil_left, Value.scale, one_mul, call_indicator, hs]
          cases periods? x <;> rfl
    | pairwise f => exact hspec.elim
    | transform f =>
      obtain ⟨v, rfl⟩ := List.length_eq_one_iff.1 harity
      obtain ⟨k, rfl⟩ := List.length_eq_one_iff.1 hunits
      cases v with
      | scalar x => rfl
      | series s => exact congrArg (fun r => Except.ok (Value.series r)) (hspec k s (hpos k (by simp)))
  · rw [call_of_length_ne harity, call_of_length_ne (by simpa [hlength] using harity)]
    simp [hlength, Except.map]

/-! ## Evaluations -/

namespace Expr

variable {c : ℚ} (store : Store ℚ) (policy : Policy)

/-- The factors of the values of arguments. -/
def units (c : ℚ) (es : List (Expr ℚ)) : List ℚ := es.map fun e => c ^ e.degree

/-- The factor of a call is that of its first argument, or one. -/
theorem pow_degree_call (c : ℚ) (name : String) (args : List (Expr ℚ)) :
    c ^ (call name args).degree = unitFactor name ((units c args).headD 1) := by
  have hfirst : (units c args).headD 1 = c ^ degreeOfFirst args := by
    cases args with
    | nil => exact (pow_zero c).symm
    | cons e es => rfl
  rw [hfirst, degree, unitFactor]
  split
  · rfl
  · exact pow_zero c

/-- A call whose arguments have their units. -/
theorem call_units {name : String} {args : List (Expr ℚ)} (h : KeepsUnits name args) {spec : FunctionSpec ℚ}
    (hspec : Registry.builtin.get? name = some spec) {values : List (Value ℚ)} (hlength : values.length = args.length)
    {c : ℚ} (hc : 0 < c) : spec.call (List.zipWith Value.scale (units c args) values) =
      (spec.call values).map (Value.scale (c ^ (call name args).degree)) := by
  obtain ⟨hmem, rfl⟩ := Registry.of_get?_ofList hspec
  obtain ⟨hname, hperiods⟩ := h
  rw [pow_degree_call]
  refine FunctionSpec.call_scale (rescales_of_mem_builtinFunctions spec hmem hname) ?_ ?_ ?_
  · rw [units, List.length_map, hlength]
  · simp only [units, List.forall_mem_map]
    exact fun e _ => pow_pos hc e.degree
  · intro hscalar k hk
    rw [units, List.getElem?_map, Option.mem_map] at hk
    obtain ⟨e, he, rfl⟩ := hk
    rw [hperiods (mem_indicatorNames_of_parameters spec hmem hscalar) e he, pow_zero]

mutual

/-- **The value of an expression has the unit of its degree**, or there is the same error. -/
theorem evaluateAt_scale (hc : 0 < c) : ∀ (depth : ℕ) (e : Expr ℚ), e.EachCall KeepsUnits →
    (e.evaluateAt ⟨store.scale c, .builtin, policy⟩ depth).result =
      (e.evaluateAt ⟨store, .builtin, policy⟩ depth).result.map (Value.scale (c ^ e.degree))
  | _, .literal value, _ => by
    rw [evaluateAt, evaluateAt, degree, pow_zero]
    exact congrArg Except.ok (Value.scale_one _).symm
  | _, .identifier name, _ => by
    rw [evaluateAt, evaluateAt, degree, pow_one]
    dsimp only [Store.scale]
    cases store (Text.lower name) <;> rfl
  | depth, .call name args, h => by
    rw [EachCall] at h
    rw [evaluateAt_call, evaluateAt_call]
    dsimp only
    split
    · rfl
    · rw [Environment.result_apply, Environment.result_apply, evaluateArguments_scale hc (depth + 1) args h.2]
      cases hargs : (evaluateArguments ⟨store, .builtin, policy⟩ (depth + 1) args).result with
      | error error => rfl
      | ok values =>
        dsimp only [Except.map, Except.bind]
        cases hspec : (Registry.builtin (α := ℚ)).get? name with
        | none => rfl
        | some spec => exact call_units h.1 hspec (length_of_evaluateArguments _ hargs) hc

theorem evaluateArguments_scale (hc : 0 < c) : ∀ (depth : ℕ) (es : List (Expr ℚ)), EachCallOfList KeepsUnits es →
    (evaluateArguments ⟨store.scale c, .builtin, policy⟩ depth es).result =
      (evaluateArguments ⟨store, .builtin, policy⟩ depth es).result.map (List.zipWith Value.scale (units c es))
  | _, [], _ => by
    rw [evaluateArguments, evaluateArguments]
    rfl
  | depth, e :: es, h => by
    rw [EachCallOfList] at h
    rw [result_evaluateArguments_cons, result_evaluateArguments_cons, evaluateAt_scale hc depth e h.1,
      evaluateArguments_scale hc depth es h.2]
    cases (e.evaluateAt ⟨store, .builtin, policy⟩ depth).result with
    | error error => rfl
    | ok v => cases (evaluateArguments ⟨store, .builtin, policy⟩ depth es).result <;> rfl

end

/-- **A formula does not depend on the unit of its series**: if their present values are multiplied by `c`, there is the
same error, or the value is multiplied by the power of `c` that the degree of the formula says, and the name and the
labels of a series are the same. -/
theorem evaluate_scale (hc : 0 < c) {e : Expr ℚ} (h : e.EachCall KeepsUnits) :
    (e.evaluate ⟨store.scale c, .builtin, policy⟩).result =
      (e.evaluate ⟨store, .builtin, policy⟩).result.map (Value.scale (c ^ e.degree)) :=
  evaluateAt_scale store policy hc 0 e h

/-- The mean of a trend over as many periods as another series has values, in twelfths. -/
theorem evaluate_scale_nested :
    let gdp : Series ℚ := ⟨"gdp", [⟨"2020-01-01", some 1⟩, ⟨"2020-02-01", none⟩, ⟨"2020-03-01", some 2⟩,
      ⟨"2020-04-01", some 6⟩]⟩
    let rate : Series ℚ := ⟨"rate", [⟨"2020-01-01", some 0⟩, ⟨"2020-02-01", some (-3)⟩]⟩
    let store : Store ℚ := fun id => if id = "gdp" then some gdp else if id = "rate" then some rate else none
    let e : Expr ℚ := .call "MA" [.call "REGRESSION" [.identifier "GDP"], .call "COUNT" [.identifier "rate"]]
    (0 : ℚ) < 12 ∧ e.EachCall KeepsUnits ∧
      (e.evaluate ⟨store, .builtin, .standard⟩).result =
        .ok (.series ⟨"MA(REGRESSION(gdp),2)", [⟨"2020-03-01", some (7 / 4)⟩, ⟨"2020-04-01", some (17 / 4)⟩]⟩) ∧
      (e.evaluate ⟨store.scale 12, .builtin, .standard⟩).result =
        .ok (.series ⟨"MA(REGRESSION(gdp),2)", [⟨"2020-03-01", some 21⟩, ⟨"2020-04-01", some 51⟩]⟩) := by
  intro gdp rate store e
  have hunits : e.EachCall KeepsUnits := by
    simp [e, EachCall, EachCallOfList, KeepsUnits, indicatorNames, degree, unitNames]
  have hvalue : (e.evaluate ⟨store, .builtin, .standard⟩).result =
      .ok (.series ⟨"MA(REGRESSION(gdp),2)", [⟨"2020-03-01", some (7 / 4)⟩, ⟨"2020-04-01", some (17 / 4)⟩]⟩) := by
    decide +kernel
  refine ⟨by decide, hunits, hvalue, ?_⟩
  rw [evaluate_scale store .standard (by decide) hunits, hvalue]
  decide +kernel

end Expr

end SeriesFormula
