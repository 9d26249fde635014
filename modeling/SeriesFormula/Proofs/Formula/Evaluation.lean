import SeriesFormula.Formula.Evaluate
import SeriesFormula.Proofs.Result

/-!
# One step of the evaluator

- a call that is nested too deep is refused before its arguments are looked at, and applied behind them otherwise
  (`Expr.evaluateAt_call`);
- the values of arguments are taken from left to right up to the first failure (`Expr.result_evaluateArguments`);
- a call has a value only if its function is known and its arguments have values (`Expr.exists_of_evaluateAt_call`);
- a function is looked up behind its arguments, and its call is recorded once it is known (`Environment.apply_of_none`,
  `Environment.apply_of_some`).
-/

namespace SeriesFormula

variable {α : Type} [Number α] (env : Environment α) (depth : Nat)

namespace Environment

variable {env} {name : String} {values : List (Value α)} {records : List (CallRecord α)}

/-- A call of no function is not recorded. -/
theorem apply_of_none (h : env.registry.get? name = none) :
    env.apply depth name ⟨.ok values, records⟩ = ⟨.error (.unknownFunction name), records⟩ := by
  simp only [apply, h]

/-- A call of a function is recorded, however it ends. -/
theorem apply_of_some {spec : FunctionSpec α} (h : env.registry.get? name = some spec) :
    env.apply depth name ⟨.ok values, records⟩ =
      ⟨spec.call values, records ++ [⟨depth, name, values.map Value.kind, .ofResult (spec.call values)⟩]⟩ := by
  simp only [apply, h]

/-- A function is looked up behind its arguments. -/
theorem result_apply (name : String) (args : Evaluation α (List (Value α))) :
    (env.apply depth name args).result = args.result.bind fun values =>
      match env.registry.get? name with
      | none => .error (.unknownFunction name)
      | some spec => spec.call values := by
  obtain ⟨result, records⟩ := args
  cases result with
  | error error => rfl
  | ok values =>
    cases h : env.registry.get? name with
    | none => rw [apply_of_none depth h]; rfl
    | some spec => rw [apply_of_some depth h]; rfl

end Environment

namespace Expr

/-- A call is refused at the limit of the depth; otherwise its arguments are evaluated one deeper. -/
theorem evaluateAt_call (name : String) (args : List (Expr α)) :
    (call name args).evaluateAt env depth =
      if env.policy.maxDepth ≤ depth then ⟨.error (.limit (.depth env.policy.maxDepth)), []⟩
      else env.apply (depth + 1) name (evaluateArguments env (depth + 1) args) := by
  rw [evaluateAt, Policy.admitDepth]
  by_cases h : env.policy.maxDepth ≤ depth
  · rw [if_pos (Nat.lt_succ_of_le h), if_pos h]
  · rw [if_neg (by omega), if_neg h]

/-- The other arguments are evaluated behind the first. -/
theorem result_evaluateArguments_cons (e : Expr α) (es : List (Expr α)) :
    (evaluateArguments env depth (e :: es)).result =
      (e.evaluateAt env depth).result.bind fun v => (evaluateArguments env depth es).result.map (v :: ·) := by
  rw [evaluateArguments]
  cases (e.evaluateAt env depth).result <;> rfl

/-- Each argument is evaluated unless one before it has failed. -/
theorem result_evaluateArguments (es : List (Expr α)) :
    (evaluateArguments env depth es).result = es.mapM fun e => (e.evaluateAt env depth).result := by
  induction es with
  | nil => rfl
  | cons e es ih =>
    rw [result_evaluateArguments_cons, List.mapM_cons, ← ih]
    cases (e.evaluateAt env depth).result with
    | error error => rfl
    | ok v => cases (evaluateArguments env depth es).result <;> rfl

/-- Arguments have as many values as they are. -/
theorem length_of_evaluateArguments {depth : Nat} {es : List (Expr α)} {values : List (Value α)}
    (h : (evaluateArguments env depth es).result = .ok values) : values.length = es.length := by
  rw [result_evaluateArguments, mapM_eq_ok_iff] at h
  exact h.length_eq.symm

/-- A call has a value only from a function of the table and from values of its arguments. -/
theorem exists_of_evaluateAt_call {env : Environment α} {depth : Nat} {name : String} {args : List (Expr α)}
    {v : Value α} (h : ((call name args).evaluateAt env depth).result = .ok v) :
    ∃ spec values, env.registry.get? name = some spec ∧
      List.Forall₂ (fun e v => (e.evaluateAt env (depth + 1)).result = .ok v) args values ∧
      spec.call values = .ok v := by
  rw [evaluateAt_call] at h
  split at h
  · cases h
  rw [Environment.result_apply] at h
  obtain ⟨values, hargs, hcall⟩ := bind_eq_ok_iff.1 h
  cases hspec : env.registry.get? name with
  | none =>
    rw [hspec] at hcall
    cases hcall
  | some spec =>
    rw [hspec] at hcall
    rw [result_evaluateArguments, mapM_eq_ok_iff] at hargs
    exact ⟨spec, values, rfl, hargs, hcall⟩

end Expr

end SeriesFormula
