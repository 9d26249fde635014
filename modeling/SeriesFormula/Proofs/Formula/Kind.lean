import SeriesFormula.Proofs.Formula.Call
import SeriesFormula.Proofs.Formula.Evaluation

/-!
# Kinds of expressions

`Expr.kind?` gives the kind of an expression's value without evaluating it: from the series that are stored, the
functions that are registered and what they take and give. Evaluation agrees with it in both directions
(`agrees_evaluateAt`, `evaluate_kind`): a value has the kind of its expression, and an expression that has a kind and is
not nested too deep has a value, or one of its functions gets a number of periods that is none.
-/

namespace SeriesFormula

variable {α : Type}

/-! ## Kinds without evaluation -/

/-- The kind of a call by the function's name and the kinds of the arguments. -/
def Registry.callKind? (registry : Registry α) (name : String) (kinds : List ValueKind) : Option ValueKind :=
  (registry.get? name).bind fun spec =>
    if kinds = spec.implementation.parameters then some spec.implementation.resultKind else none

namespace Expr

variable (store : Store α) (registry : Registry α)

mutual

/-- The kind of an expression, if it has one. -/
def kind? : Expr α → Option ValueKind
  | literal _ => some .scalar
  | identifier name => (store (Text.lower name)).map fun _ => .series
  | call name args => (kindsOfList? args).bind (registry.callKind? name)

/-- The kinds of a list of expressions, if each has one. -/
def kindsOfList? : List (Expr α) → Option (List ValueKind)
  | [] => some []
  | e :: es => e.kind?.bind fun kind => (kindsOfList? es).map (kind :: ·)

end

end Expr

/-! ## Agreement -/

/-- A result agrees with the kind that its expression is said to have, where `fits` says that the expression is not
nested too deep. -/
inductive Agrees {β κ : Type} (kind : β → κ) (kind? : Option κ) (fits : Prop) : Except (FormulaError α) β → Prop
  /-- There is a value of the kind. -/
  | value {v : β} : kind? = some (kind v) → fits → Agrees kind kind? fits (.ok v)
  /-- A number of periods is none. -/
  | periods (function : String) (x : α) : Agrees kind kind? fits (.error (.invalidPeriods function x))
  /-- There is no kind, or the expression is nested too deep. -/
  | refused {error : FormulaError α} : (fits → kind? = none) → Agrees kind kind? fits (.error error)

variable {fits fits' : Prop}

/-- **One call**, behind its arguments. -/
theorem Agrees.apply [Number α] {env : Environment α} {depth : Nat} {name : String} {kinds? : Option (List ValueKind)}
    {args : Evaluation α (List (Value α))} (h : Agrees (List.map Value.kind) kinds? fits args.result) :
    Agrees Value.kind (kinds?.bind (env.registry.callKind? name)) fits (env.apply depth name args).result := by
  rw [Environment.result_apply]
  generalize args.result = result at h
  cases h with
  | periods function x => exact .periods function x
  | refused hnone => exact .refused fun hf => by rw [hnone hf, Option.bind_none]
  | @value values hkinds hf =>
    rw [hkinds, Option.bind_some, Registry.callKind?, Except.bind]
    cases env.registry.get? name with
    | none => exact .refused fun _ => rfl
    | some spec =>
      have hends := spec.ends_call values
      dsimp only [Option.bind_some]
      generalize spec.call values = result at hends
      cases hends with
      | value hfits hkind => exact .value (by rw [if_pos hfits, hkind]) hf
      | periods x _ => exact .periods _ x
      | misuse hfits _ => exact .refused fun _ => if_neg hfits

/-- One argument in front of others. -/
theorem Agrees.cons {kind? : Option ValueKind} {kinds? : Option (List ValueKind)}
    {first : Except (FormulaError α) (Value α)} {rest : Except (FormulaError α) (List (Value α))}
    (hfirst : Agrees Value.kind kind? fits first) (hrest : Agrees (List.map Value.kind) kinds? fits' rest) :
    Agrees (List.map Value.kind) (kind?.bind fun kind => kinds?.map (kind :: ·)) (fits ∧ fits')
      (first.bind fun v => rest.map (v :: ·)) := by
  cases hfirst with
  | periods function x => exact .periods function x
  | refused hnone => exact .refused fun hf => by rw [hnone hf.1, Option.bind_none]
  | value hkind hf =>
    rw [hkind]
    cases hrest with
    | periods function x => exact .periods function x
    | refused hnone => exact .refused fun hf' => by rw [hnone hf'.2, Option.bind_some, Option.map_none]
    | value hkinds hf' => exact .value (by rw [hkinds]; rfl) ⟨hf, hf'⟩

/-! ## Evaluations -/

namespace Expr

variable [Number α] (env : Environment α)

mutual

/-- **Evaluation agrees with the kinds.** -/
theorem agrees_evaluateAt : ∀ {depth : Nat}, depth ≤ env.policy.maxDepth → ∀ e : Expr α,
    Agrees Value.kind (e.kind? env.store env.registry) (depth + e.depth ≤ env.policy.maxDepth)
      (e.evaluateAt env depth).result
  | _, hd, .literal value => by
    rw [evaluateAt]
    exact .value rfl hd
  | _, hd, .identifier name => by
    rw [evaluateAt, kind?]
    cases env.store (Text.lower name) with
    | none => exact .refused fun _ => rfl
    | some s => exact .value rfl hd
  | depth, _, .call name args => by
    rw [evaluateAt_call, kind?, Expr.depth, ← Nat.add_assoc]
    split
    · exact .refused fun _ => by omega
    · exact (agrees_evaluateArguments (by omega) args).apply

theorem agrees_evaluateArguments : ∀ {depth : Nat}, depth ≤ env.policy.maxDepth → ∀ es : List (Expr α),
    Agrees (List.map Value.kind) (kindsOfList? env.store env.registry es)
      (depth + depthOfList es ≤ env.policy.maxDepth) (evaluateArguments env depth es).result
  | _, hd, [] => by
    rw [evaluateArguments]
    exact .value rfl hd
  | depth, hd, e :: es => by
    have hfits : depth + max e.depth (depthOfList es) ≤ env.policy.maxDepth ↔
        depth + e.depth ≤ env.policy.maxDepth ∧ depth + depthOfList es ≤ env.policy.maxDepth := by omega
    rw [result_evaluateArguments_cons, kindsOfList?, depthOfList, hfits]
    exact (agrees_evaluateAt hd e).cons (agrees_evaluateArguments hd es)

end

/-- **Kinds are sound and complete for evaluation.** A value has the kind of its expression, which is then not nested
too deep. An expression that has a kind and is not nested too deep has a value of the kind, or some function gets a
number of periods that is none; there is no other error. -/
theorem evaluate_kind (e : Expr α) :
    (∀ v, (e.evaluate env).result = .ok v →
      e.kind? env.store env.registry = some v.kind ∧ e.depth ≤ env.policy.maxDepth) ∧
    (∀ kind, e.kind? env.store env.registry = some kind → e.depth ≤ env.policy.maxDepth →
      (∃ v, (e.evaluate env).result = .ok v ∧ v.kind = kind) ∨
        ∃ function x, (e.evaluate env).result = .error (.invalidPeriods function x)) := by
  have hagrees : Agrees Value.kind _ _ (e.evaluate env).result := agrees_evaluateAt env (Nat.zero_le _) e
  rw [Nat.zero_add] at hagrees
  generalize (e.evaluate env).result = result at hagrees
  cases hagrees with
  | value hkind hfits =>
    refine ⟨?_, ?_⟩
    · rintro _ ⟨⟩
      exact ⟨hkind, hfits⟩
    · intro kind hk _
      rw [hkind, Option.some.injEq] at hk
      exact .inl ⟨_, rfl, hk⟩
  | periods function x => exact ⟨nofun, fun _ _ _ => .inr ⟨function, x, rfl⟩⟩
  | refused hnone =>
    refine ⟨nofun, fun kind hk hfits => ?_⟩
    rw [hnone hfits] at hk
    cases hk

end Expr

end SeriesFormula
