import SeriesFormula.Proofs.Formula.Context
import SeriesFormula.Proofs.Formula.Evaluation
import SeriesFormula.Proofs.Result

/-!
# Naming intermediate series

`Expr.replace name inner outer` puts an expression in the place of an identifier. If that expression has a series as
its value, and the context has the series under the identifier, then the two are evaluated alike (`evaluate_replace`):
to compute a series in place or to look it up is the same, but for the depth of its calls.

Two things are followed along the tree, each for all depths, and both up to the error that the limit on the depth is
exceeded: that an expression which is moved into more calls keeps its result (`eqUnless_deeper`), and the replacement
itself (`eqUnless_replace`).
-/

namespace SeriesFormula.Expr

variable {α : Type}

mutual

/-- An expression with another one in the place of each identifier that is `name`, in letters of any case. -/
def replace (name : String) (inner : Expr α) : Expr α → Expr α
  | call function args => call function (replaceInList name inner args)
  | identifier other => if Text.sameLetters other name then inner else identifier other
  | literal value => literal value

def replaceInList (name : String) (inner : Expr α) : List (Expr α) → List (Expr α)
  | [] => []
  | e :: es => replace name inner e :: replaceInList name inner es

end

variable [Number α] {registry : Registry α} {policy : Policy}

section

variable {store store' : Store α} {depth depth' : Nat}

/-- **One call**, inside of more calls or of as many, behind its arguments. -/
theorem eqUnless_call (hdepth : depth' ≤ depth) (function : String) {args args' : List (Expr α)}
    (h : EqUnless (.limit (.depth policy.maxDepth))
      (evaluateArguments ⟨store, registry, policy⟩ (depth + 1) args).result
      (evaluateArguments ⟨store', registry, policy⟩ (depth' + 1) args').result) :
    EqUnless (.limit (.depth policy.maxDepth)) ((call function args).evaluateAt ⟨store, registry, policy⟩ depth).result
      ((call function args').evaluateAt ⟨store', registry, policy⟩ depth').result := by
  rw [evaluateAt_call, evaluateAt_call]
  by_cases hlimit : policy.maxDepth ≤ depth
  · rw [if_pos hlimit]
    exact .failed _
  · rw [if_neg hlimit, if_neg (by dsimp only; omega), Environment.result_apply, Environment.result_apply]
    exact h.bind fun _ => .refl _

/-- One argument in front of others. -/
theorem eqUnless_cons {e e' : Expr α} {es es' : List (Expr α)}
    (hfirst : EqUnless (.limit (.depth policy.maxDepth)) (e.evaluateAt ⟨store, registry, policy⟩ depth).result
      (e'.evaluateAt ⟨store', registry, policy⟩ depth').result)
    (hrest : EqUnless (.limit (.depth policy.maxDepth)) (evaluateArguments ⟨store, registry, policy⟩ depth es).result
      (evaluateArguments ⟨store', registry, policy⟩ depth' es').result) :
    EqUnless (.limit (.depth policy.maxDepth)) (evaluateArguments ⟨store, registry, policy⟩ depth (e :: es)).result
      (evaluateArguments ⟨store', registry, policy⟩ depth' (e' :: es')).result := by
  rw [result_evaluateArguments_cons, result_evaluateArguments_cons]
  exact hfirst.bind fun v => hrest.map (v :: ·)

end

/-! ## Moving an expression into more calls -/

section

variable {store : Store α}

mutual

/-- Inside of more calls an expression has the same result, unless they are too many. -/
theorem eqUnless_deeper : ∀ {depth depth' : Nat}, depth' ≤ depth → ∀ e : Expr α,
    EqUnless (.limit (.depth policy.maxDepth)) (e.evaluateAt ⟨store, registry, policy⟩ depth).result
      (e.evaluateAt ⟨store, registry, policy⟩ depth').result
  | _, _, _, .literal value => by
    rw [evaluateAt, evaluateAt]
    exact .refl _
  | _, _, _, .identifier name => by
    rw [evaluateAt, evaluateAt]
    exact .refl _
  | _, _, h, .call name args => eqUnless_call h name (eqUnless_deeper_list (Nat.succ_le_succ h) args)

theorem eqUnless_deeper_list : ∀ {depth depth' : Nat}, depth' ≤ depth → ∀ es : List (Expr α),
    EqUnless (.limit (.depth policy.maxDepth)) (evaluateArguments ⟨store, registry, policy⟩ depth es).result
      (evaluateArguments ⟨store, registry, policy⟩ depth' es).result
  | _, _, _, [] => by
    rw [evaluateArguments, evaluateArguments]
    exact .refl _
  | _, _, h, e :: es => eqUnless_cons (eqUnless_deeper h e) (eqUnless_deeper_list h es)

end

end

/-! ## Replacing an identifier -/

section

variable {context : Context α} {name : String} {inner : Expr α} {s : Series α}

mutual

/-- **The two runs**: with an expression in the place of an identifier, and with its series under the identifier. -/
theorem eqUnless_replace (h : (inner.evaluate ⟨context.store, registry, policy⟩).result = .ok (.series s)) :
    ∀ (depth : Nat) (outer : Expr α), EqUnless (.limit (.depth policy.maxDepth))
      ((replace name inner outer).evaluateAt ⟨context.store, registry, policy⟩ depth).result
      (outer.evaluateAt ⟨(context.insert name s).store, registry, policy⟩ depth).result
  | depth, .literal value => by
    rw [replace, evaluateAt, evaluateAt]
    exact .refl _
  | depth, .identifier other => by
    have hstore : (context.insert name s).store (Text.lower other) =
        if Text.lower name = Text.lower other then some s else context.store (Text.lower other) :=
      context.get?_insert name s (Text.lower other)
    by_cases hsame : Text.lower other = Text.lower name
    · have hout : ((identifier other).evaluateAt ⟨(context.insert name s).store, registry, policy⟩ depth).result =
          .ok (.series s) := by
        rw [evaluateAt]
        dsimp only
        rw [hstore, if_pos hsame.symm]
      rw [replace, Text.sameLetters, if_pos (beq_iff_eq.2 hsame), hout, ← h]
      exact eqUnless_deeper (Nat.zero_le depth) inner
    · rw [replace, Text.sameLetters, if_neg (mt beq_iff_eq.1 hsame), evaluateAt, evaluateAt]
      dsimp only
      rw [hstore, if_neg (Ne.symm hsame)]
      exact .refl _
  | depth, .call function args => by
    rw [replace]
    exact eqUnless_call (Nat.le_refl depth) function (eqUnless_replaceInList h (depth + 1) args)

theorem eqUnless_replaceInList (h : (inner.evaluate ⟨context.store, registry, policy⟩).result = .ok (.series s)) :
    ∀ (depth : Nat) (es : List (Expr α)), EqUnless (.limit (.depth policy.maxDepth))
      (evaluateArguments ⟨context.store, registry, policy⟩ depth (replaceInList name inner es)).result
      (evaluateArguments ⟨(context.insert name s).store, registry, policy⟩ depth es).result
  | depth, [] => by
    rw [replaceInList, evaluateArguments, evaluateArguments]
    exact .refl _
  | depth, e :: es => by
    rw [replaceInList]
    exact eqUnless_cons (eqUnless_replace h depth e) (eqUnless_replaceInList h depth es)

end

end

/-- **A name for an intermediate series does not change what a formula means.** If an expression has a series as its
value, then a formula over the context with the series under an identifier has the same result as the formula with the
expression in the place of the identifier: the same value with the same name, or the same error. Only the limit on the
depth can tell them apart, and it does so only by an error of the second. -/
theorem evaluate_replace (context : Context α) (registry : Registry α) (policy : Policy) (name : String)
    (outer inner : Expr α) {s : Series α}
    (hinner : (inner.evaluate ⟨context.store, registry, policy⟩).result = .ok (.series s))
    (hdepth : ((replace name inner outer).evaluate ⟨context.store, registry, policy⟩).result ≠
      .error (.limit (.depth policy.maxDepth))) :
    (outer.evaluate ⟨(context.insert name s).store, registry, policy⟩).result =
      ((replace name inner outer).evaluate ⟨context.store, registry, policy⟩).result :=
  (eqUnless_replace hinner 0 outer hdepth).symm

/-- A mean under a name, in letters of another case, inside of a change: the name of the mean goes on into the result. -/
theorem evaluate_replace_nested :
    let s : Series Float := ⟨"gdp", [⟨"2020-01-01", some 1⟩, ⟨"2020-02-01", none⟩, ⟨"2020-03-01", some 3⟩,
      ⟨"2020-04-01", some 6⟩, ⟨"2020-05-01", some 2⟩]⟩
    let context : Context Float := Context.empty.insert "GDP" s
    let inner : Expr Float := .call "MA" [.identifier "GDP", .literal 2]
    let t : Series Float := ⟨"MA(gdp,2)", [⟨"2020-03-01", some 2⟩, ⟨"2020-04-01", some 4.5⟩, ⟨"2020-05-01", some 4⟩]⟩
    let outer : Expr Float := .call "MOMENTUM" [.identifier "Trend", .literal 1]
    let r : Series Float := ⟨"MOMENTUM(MA(gdp,2),1)", [⟨"2020-04-01", some 2.5⟩, ⟨"2020-05-01", some (-0.5)⟩]⟩
    (inner.evaluate ⟨context.store, .builtin, .standard⟩).result = .ok (.series t) ∧
      ((replace "TREND" inner outer).evaluate ⟨context.store, .builtin, .standard⟩).result = .ok (.series r) ∧
      (outer.evaluate ⟨(context.insert "TREND" t).store, .builtin, .standard⟩).result =
        ((replace "TREND" inner outer).evaluate ⟨context.store, .builtin, .standard⟩).result := by
  intro s context inner t outer r
  have hinner : (inner.evaluate ⟨context.store, .builtin, .standard⟩).result = .ok (.series t) := by decide +kernel
  have hresult : ((replace "TREND" inner outer).evaluate ⟨context.store, .builtin, .standard⟩).result =
      .ok (.series r) := by
    have hname : Text.sameLetters "Trend" "TREND" = true := by
      rw [Text.sameLetters_eq]
      decide
    rw [replace, replaceInList, replaceInList, replaceInList, replace, replace, if_pos hname]
    decide +kernel
  have hdepth : ((replace "TREND" inner outer).evaluate ⟨context.store, .builtin, .standard⟩).result ≠
      .error (.limit (.depth Policy.standard.maxDepth)) := by
    rw [hresult]
    exact nofun
  exact ⟨hinner, hresult, evaluate_replace context .builtin .standard "TREND" outer inner hinner hdepth⟩

end SeriesFormula.Expr
