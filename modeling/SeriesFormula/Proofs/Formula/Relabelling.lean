import SeriesFormula.Proofs.Formula.Builtin
import SeriesFormula.Proofs.Formula.Evaluation

/-!
# Missing values and the texts of labels do not count

Two runs: over the series of a store, and over the same series without their missing values and with other texts for
their labels (`Store.stripped`). With built-in functions they make the same records and end alike
(`evaluateAt_stripped`), since each call of such a function does (`FunctionSpec.call_stripped`). So the value of a call
is the same, with these texts for the labels of a series (`evaluate_call_stripped`).
-/

namespace SeriesFormula

variable {α : Type}

/-! ## The two runs -/

/-- The present observations of the series of a store, with each label replaced by its image. -/
def Store.stripped (φ : String → String) (store : Store α) : Store α := fun id => (store id).map (Series.stripped φ)

/-- The present observations of a series, with each label replaced by its image; numbers stay. -/
def Value.stripped (φ : String → String) : Value α → Value α
  | scalar x => scalar x
  | series s => series (s.stripped φ)

/-- A series with each label replaced by its image; numbers stay. -/
def Value.relabel (φ : String → String) : Value α → Value α
  | scalar x => scalar x
  | series s => series (s.relabel φ)

@[simp]
theorem Value.kind_stripped (φ : String → String) (v : Value α) : (v.stripped φ).kind = v.kind := by
  cases v <;> rfl

/-- The same records, with another result. -/
def Evaluation.map {β γ : Type} (f : β → γ) (x : Evaluation α β) : Evaluation α γ := ⟨x.result.map f, x.records⟩

/-! ## One call -/

namespace FunctionSpec

variable [Number α] {spec : FunctionSpec α} {φ : String → String}

/-- **One call** of a function of present values: stripped arguments give the stripped value, or the same error. -/
theorem call_stripped (hspec : spec.implementation.OfPresent) (values : List (Value α)) :
    spec.call (values.map (Value.stripped φ)) = (spec.call values).map (Value.stripped φ) := by
  by_cases hlen : values.length = spec.arity
  · -- the arguments that are no series, or no number, are refused in both runs
    obtain ⟨name, summary, implementation⟩ := spec
    cases implementation with
    | aggregate f =>
      obtain ⟨v, rfl⟩ := List.length_eq_one_iff.1 hlen
      cases v with
      | scalar x => rfl
      | series s =>
        have h : f (s.stripped φ) = f s := hspec _ _ (s.numbers_stripped φ)
        show Except.ok (Value.scalar (f (s.stripped φ))) = .ok (.scalar (f s))
        rw [h]
    | indicator f =>
      obtain ⟨v, w, rfl⟩ := List.length_eq_two.1 hlen
      cases v with
      | scalar x => rfl
      | series s =>
        cases w with
        | series t => rfl
        | scalar x =>
          have h : ∀ p, f (s.stripped φ) p = (f s p).stripped φ := fun p => (hspec p).stripped φ s
          simp only [List.map_cons, List.map_nil, Value.stripped, call_indicator, h]
          cases periods? x <;> rfl
    | pairwise f =>
      obtain ⟨v, w, rfl⟩ := List.length_eq_two.1 hlen
      cases v with
      | scalar x => rfl
      | series s =>
        cases w with
        | scalar x => rfl
        | series t =>
          have h : f (s.stripped φ) (t.stripped φ) = f s t :=
            hspec _ _ _ _ (s.numbers_stripped φ) (t.numbers_stripped φ)
          show Except.ok (Value.scalar (f (s.stripped φ) (t.stripped φ))) = .ok (.scalar (f s t))
          rw [h]
    | transform f =>
      obtain ⟨v, rfl⟩ := List.length_eq_one_iff.1 hlen
      cases v with
      | scalar x => rfl
      | series s =>
        have h : f (s.stripped φ) = (f s).stripped φ := Statistics.Pointwise.stripped hspec φ s
        show Except.ok (Value.series (f (s.stripped φ))) = .ok (.series ((f s).stripped φ))
        rw [h]
  · rw [call_of_length_ne hlen, call_of_length_ne (by rwa [List.length_map]), List.length_map]
    rfl

/-- No value of a series from a call is missing. -/
theorem present_of_call_eq_series (hspec : spec.implementation.OfPresent) {values : List (Value α)} {r : Series α}
    (h : spec.call values = .ok (.series r)) : r.present = r := by
  obtain ⟨s, rest, F, -, hF, rfl⟩ := exists_of_call_eq_series hspec h
  exact hF.present s

/-- The outcome of a call is recorded alike. -/
theorem ofResult_call_stripped (hspec : spec.implementation.OfPresent) (values : List (Value α)) :
    CallOutcome.ofResult ((spec.call values).map (Value.stripped φ)) = .ofResult (spec.call values) := by
  cases h : spec.call values with
  | error error => rfl
  | ok v =>
    cases v with
    | scalar x => rfl
    | series r =>
      -- nothing is missing in a series from a call, so that it stays as long
      show CallOutcome.series (r.stripped φ).length = .series r.length
      rw [Series.stripped, present_of_call_eq_series hspec h, Series.relabel, Series.length, List.length_map]
      rfl

end FunctionSpec

/-! ## Evaluations -/

variable [Number α] {registry : Registry α} (policy : Policy) (store : Store α) (φ : String → String)

/-- One call behind its arguments. -/
theorem Environment.apply_stripped (hregistry : registry.IsBuiltin) (depth : Nat) (name : String)
    (args : Evaluation α (List (Value α))) :
    Environment.apply ⟨store.stripped φ, registry, policy⟩ depth name (args.map (List.map (Value.stripped φ))) =
      (Environment.apply ⟨store, registry, policy⟩ depth name args).map (Value.stripped φ) := by
  obtain ⟨result, records⟩ := args
  cases result with
  | error error => rfl
  | ok values =>
    show Environment.apply ⟨store.stripped φ, registry, policy⟩ depth name
      ⟨.ok (values.map (Value.stripped φ)), records⟩ = _
    cases hspec : registry.get? name with
    | none =>
      have happly : ∀ (store : Store α) (values : List (Value α)),
          Environment.apply ⟨store, registry, policy⟩ depth name ⟨.ok values, records⟩ =
            ⟨.error (.unknownFunction name), records⟩ := fun _ _ => apply_of_none depth hspec
      rw [happly, happly]
      rfl
    | some spec =>
      have happly : ∀ (store : Store α) (values : List (Value α)),
          Environment.apply ⟨store, registry, policy⟩ depth name ⟨.ok values, records⟩ =
            ⟨spec.call values, records ++ [⟨depth, name, values.map Value.kind, .ofResult (spec.call values)⟩]⟩ :=
        fun _ _ => apply_of_some depth hspec
      have hpresent := hregistry.ofPresent hspec
      rw [happly, happly, FunctionSpec.call_stripped hpresent, FunctionSpec.ofResult_call_stripped hpresent,
        List.map_map]
      simp [Evaluation.map, Function.comp_def]

namespace Expr

mutual

/-- **The two runs of an expression** make the same records and end alike. -/
theorem evaluateAt_stripped (hregistry : registry.IsBuiltin) : ∀ (depth : Nat) (e : Expr α),
    e.evaluateAt ⟨store.stripped φ, registry, policy⟩ depth =
      (e.evaluateAt ⟨store, registry, policy⟩ depth).map (Value.stripped φ)
  | _, .literal value => by
    rw [evaluateAt, evaluateAt]
    rfl
  | _, .identifier name => by
    rw [evaluateAt, evaluateAt]
    dsimp only [Store.stripped]
    cases store (Text.lower name) <;> rfl
  | depth, .call name args => by
    rw [evaluateAt_call, evaluateAt_call]
    dsimp only
    split
    · rfl
    · rw [evaluateArguments_stripped hregistry (depth + 1) args, Environment.apply_stripped policy store φ hregistry]

theorem evaluateArguments_stripped (hregistry : registry.IsBuiltin) : ∀ (depth : Nat) (es : List (Expr α)),
    evaluateArguments ⟨store.stripped φ, registry, policy⟩ depth es =
      (evaluateArguments ⟨store, registry, policy⟩ depth es).map (List.map (Value.stripped φ))
  | _, [] => by
    rw [evaluateArguments, evaluateArguments]
    rfl
  | depth, e :: es => by
    rw [evaluateArguments, evaluateArguments, evaluateAt_stripped hregistry depth e,
      evaluateArguments_stripped hregistry depth es]
    generalize e.evaluateAt ⟨store, registry, policy⟩ depth = first
    generalize evaluateArguments ⟨store, registry, policy⟩ depth es = rest
    obtain ⟨first, records⟩ := first
    obtain ⟨rest, more⟩ := rest
    cases first with
    | error error => rfl
    | ok v => cases rest <;> rfl

end

/-- **Missing values and the texts of labels never count.** Over the present observations of each series, with any other
texts for their labels, a call of built-in functions has the same records and ends with the same error, the same number
or the same series with these texts for its labels. -/
theorem evaluate_call_stripped (hregistry : registry.IsBuiltin) (name : String) (args : List (Expr α)) :
    (call name args).evaluate ⟨store.stripped φ, registry, policy⟩ =
      ((call name args).evaluate ⟨store, registry, policy⟩).map (Value.relabel φ) := by
  have hrelabel : ((call name args).evaluate ⟨store, registry, policy⟩).result.map (Value.stripped φ) =
      ((call name args).evaluate ⟨store, registry, policy⟩).result.map (Value.relabel φ) := by
    cases h : ((call name args).evaluate ⟨store, registry, policy⟩).result with
    | error error => rfl
    | ok v =>
      cases v with
      | scalar x => rfl
      | series r =>
        have hr : r.present = r := by
          have hbuiltin : (Environment.mk store registry policy).registry.IsBuiltin := hregistry
          obtain ⟨_, _, s, F, -, -, hF, rfl⟩ := exists_first_of_call hbuiltin h
          exact hF.present s
        show Except.ok (Value.series (r.stripped φ)) = .ok (.series (r.relabel φ))
        rw [Series.stripped, hr]
  rw [evaluate, evaluateAt_stripped policy store φ hregistry]
  exact congrArg (Evaluation.mk · _) hrelabel

/-- The changes of a mean, over a series with a missing value, when all labels are replaced by one text. -/
theorem evaluate_call_stripped_nested :
    let s : Series Float := ⟨"gdp", [⟨"2020-01-01", some 1⟩, ⟨"2020-02-01", none⟩, ⟨"2020-03-01", some 3⟩,
      ⟨"2020-04-01", some 6⟩, ⟨"2020-05-01", some 2⟩]⟩
    let store : Store Float := fun id => if id = "gdp" then some s else none
    let φ : String → String := fun _ => "day"
    let args : List (Expr Float) := [.call "MA" [.identifier "GDP", .literal 2], .literal 1]
    (Registry.builtin (α := Float)).IsBuiltin ∧
      ((call "MOMENTUM" args).evaluate ⟨store.stripped φ, .builtin, .standard⟩).result =
        .ok (.series ⟨"MOMENTUM(MA(gdp,2),1)", [⟨"day", some 2.5⟩, ⟨"day", some (-0.5)⟩]⟩) ∧
      (call "MOMENTUM" args).evaluate ⟨store.stripped φ, .builtin, .standard⟩ =
        ((call "MOMENTUM" args).evaluate ⟨store, .builtin, .standard⟩).map (Value.relabel φ) := by
  intro s store φ args
  have hregistry : (Registry.builtin (α := Float)).IsBuiltin := Registry.isBuiltin_builtin
  exact ⟨hregistry, by decide +kernel, evaluate_call_stripped .standard store φ hregistry "MOMENTUM" args⟩

end Expr

end SeriesFormula
