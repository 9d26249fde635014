import SeriesFormula.Proofs.Formula.Kind
import SeriesFormula.Proofs.Formula.Reading
import SeriesFormula.Proofs.Formula.Trace

/-!
# Limits

The depth of calls is counted three times: bottom-up on a tree (`Expr.depth`), by the reader, and again by the
evaluator.

- Raising the limits changes no text that is read without one being exceeded (`Formula.parse_of_limits_le`), since the
  reader goes the same way up to the first call that is nested too deep (`Formula.eqUnless_parseNode`).
- A tree that fits under a limit is evaluated alike under any limit that it fits under (`Expr.evaluateAt_eq_of_fits`),
  so that the evaluator never reports the depth of such a tree (`Expr.evaluate_ne_limit`). A tree that is read fits.
- Hence limits cut off without changing an answer (`Engine.run_of_limits_le`), and a formula that is refused for its
  text or for a limit is refused by the reader: nothing is recorded, and the data do not matter
  (`Engine.runInto_of_isOfText`).
-/

namespace SeriesFormula

/-! ## The reader -/

namespace Formula

variable {P Q : Policy} {formula : String}

/-- Under a higher limit on the depth a text is read alike, unless the lower one is exceeded. -/
theorem eqUnless_parseNode (hdepth : P.maxDepth ≤ Q.maxDepth) {cs : List Char} :
    ∀ {depth : Nat}, EqUnless (.limit (.depth P.maxDepth)) (parseNode P depth cs) (parseNode Q depth cs) := by
  induction cs using text_induction with
  | leaf cs hcall =>
    intro depth
    rw [parseNode_of_leaf hcall, parseNode_of_leaf hcall]
    exact .refl _
  | call cs name inner hcall ih =>
    intro depth
    rw [parseNode_of_call hcall, parseNode_of_call hcall]
    by_cases hP : P.maxDepth ≤ depth
    · rw [if_pos hP]
      exact .failed _
    · rw [if_neg hP, if_neg (by omega)]
      exact .map _ (.mapM fun piece hm => ih piece hm)

/-- **A text that is read or refused under low limits, without one of them being exceeded, ends alike under higher
ones.** -/
theorem parse_of_limits_le (hdepth : P.maxDepth ≤ Q.maxDepth) (hlength : P.maxLength ≤ Q.maxLength)
    (h : ∀ excess, parse P formula ≠ .error (.limit excess)) : parse Q formula = parse P formula := by
  have hlen : formula.utf8ByteSize ≤ P.maxLength := by
    by_contra hlong
    exact h _ (parse_of_long (by omega))
  by_cases hb : Text.squeeze formula.toList = []
  · rw [parse_of_blank hlen hb, parse_of_blank (hlen.trans hlength) hb]
  · have hne := h (.depth P.maxDepth)
    rw [parse_of_text hlen hb] at hne ⊢
    rw [parse_of_text (hlen.trans hlength) hb]
    exact (eqUnless_parseNode hdepth hne).symm

end Formula

/-! ## The evaluator -/

/-- An error of the reader: the text is blank, holds a part that is no expression, or exceeds a limit. -/
def FormulaError.IsOfText {α : Type} : FormulaError α → Prop
  | empty | invalidExpression _ | limit _ => True
  | _ => False

namespace Expr

variable {α : Type} [Number α]

section Fits

variable {store : Store α} {registry : Registry α} {P Q : Policy}

mutual

/-- A tree that fits under two limits is evaluated alike under both. -/
theorem evaluateAt_eq_of_fits : ∀ (depth : Nat) (e : Expr α), depth + e.depth ≤ P.maxDepth →
    depth + e.depth ≤ Q.maxDepth → e.evaluateAt ⟨store, registry, P⟩ depth = e.evaluateAt ⟨store, registry, Q⟩ depth
  | _, .literal value, _, _ => by rw [evaluateAt, evaluateAt]
  | _, .identifier name, _, _ => by rw [evaluateAt, evaluateAt]
  | depth, .call name args, hP, hQ => by
    rw [Expr.depth] at hP hQ
    rw [evaluateAt_call, evaluateAt_call, if_neg (by dsimp only; omega), if_neg (by dsimp only; omega),
      evaluateArguments_eq_of_fits (depth + 1) args (by omega) (by omega)]
    rfl

theorem evaluateArguments_eq_of_fits : ∀ (depth : Nat) (es : List (Expr α)), depth + depthOfList es ≤ P.maxDepth →
    depth + depthOfList es ≤ Q.maxDepth →
    evaluateArguments ⟨store, registry, P⟩ depth es = evaluateArguments ⟨store, registry, Q⟩ depth es
  | _, [], _, _ => by rw [evaluateArguments, evaluateArguments]
  | depth, e :: es, hP, hQ => by
    rw [depthOfList] at hP hQ
    rw [evaluateArguments, evaluateArguments, evaluateAt_eq_of_fits depth e (by omega) (by omega),
      evaluateArguments_eq_of_fits depth es (by omega) (by omega)]

end

end Fits

variable {env : Environment α} {e : Expr α}

/-- An error of an evaluation is a function's, or it is of a name or of the limit on the depth. -/
theorem isOfCall_or_isOfSearch {error : FormulaError α} (h : (e.evaluate env).result = .error error) :
    error.IsOfCall ∨ error.IsOfSearch env.policy := by
  have htrace : Traces env.policy e.calls (e.evaluate env) := traces_evaluateAt env 0 e
  rcases htrace.of_error h with ⟨hcall, -⟩ | ⟨hsearch, -⟩
  · exact .inl hcall
  · exact .inr hsearch

/-- **A tree that fits exceeds no limit.** -/
theorem evaluate_ne_limit (h : e.depth ≤ env.policy.maxDepth) (excess : LimitExceeded) :
    (e.evaluate env).result ≠ .error (.limit excess) := by
  intro hlimit
  -- an error names its limit, but under the next limit the tree has the same error
  let raised : Environment α := { env with policy := { env.policy with maxDepth := env.policy.maxDepth + 1 } }
  have hsame : e.evaluate env = e.evaluate raised :=
    evaluateAt_eq_of_fits 0 e (by omega) (by dsimp only; omega)
  have hlow : excess = .depth env.policy.maxDepth := (isOfCall_or_isOfSearch hlimit).resolve_left id
  rw [hsame] at hlimit
  have hhigh : excess = .depth (env.policy.maxDepth + 1) := (isOfCall_or_isOfSearch hlimit).resolve_left id
  rw [hlow, LimitExceeded.depth.injEq] at hhigh
  omega

/-- A tree that does not fit has no value. -/
theorem evaluate_ne_ok (h : env.policy.maxDepth < e.depth) (v : Value α) : (e.evaluate env).result ≠ .ok v := by
  intro hv
  have hagrees : Agrees Value.kind _ _ (e.evaluate env).result := agrees_evaluateAt env (Nat.zero_le _) e
  rw [hv] at hagrees
  cases hagrees with
  | value _ hfits => omega

/-- A tree that fits has no error of the reader. -/
theorem not_isOfText_of_evaluate (h : e.depth ≤ env.policy.maxDepth) {error : FormulaError α}
    (herror : (e.evaluate env).result = .error error) : ¬error.IsOfText := by
  intro htext
  cases error with
  | limit excess => exact evaluate_ne_limit h excess herror
  | empty => rcases isOfCall_or_isOfSearch herror with h | h <;> exact h
  | invalidExpression fragment => rcases isOfCall_or_isOfSearch herror with h | h <;> exact h
  | _ => exact htext

end Expr

/-! ## Engines -/

namespace Engine

variable {engine : Engine} {formula : String} {store : Store Float}

theorem run_of_parse_eq_error {error : FormulaError Float} (h : engine.parse formula = .error error) :
    engine.run formula store = ⟨.error error, []⟩ := by
  rw [run, h]

theorem run_of_parse_eq_ok {e : Expr Float} (h : engine.parse formula = .ok e) :
    engine.run formula store = e.evaluate ⟨store, engine.registry, engine.policy⟩ := by
  rw [run, h]

/-- An error of the text or of a limit comes from the reader. -/
theorem parse_of_isOfText {error : FormulaError Float} (htext : error.IsOfText)
    (h : (engine.run formula store).result = .error error) : engine.parse formula = .error error := by
  cases hparse : engine.parse formula with
  | error error' =>
    rw [run_of_parse_eq_error hparse] at h
    cases h
    rfl
  | ok e =>
    obtain ⟨-, -, hfits⟩ := Formula.parse_eq_ok_iff.1 hparse
    rw [run_of_parse_eq_ok hparse] at h
    exact absurd htext (Expr.not_isOfText_of_evaluate hfits h)

/-- **Limits cut off and never change an answer.** What a formula gives under low limits without one of them being
exceeded, a value or an error, it gives under higher ones too, with the same records. Trees that were not read obey the
limit on the depth just as well: a tree that fits exceeds it never, and one that does not fit has no value. -/
theorem run_of_limits_le {P Q : Policy} (hdepth : P.maxDepth ≤ Q.maxDepth) (hlength : P.maxLength ≤ Q.maxLength) :
    (∀ (registry : Registry Float) (formula : String) (store : Store Float),
      (∀ excess, ((Engine.mk registry P).run formula store).result ≠ .error (.limit excess)) →
      (Engine.mk registry Q).run formula store = (Engine.mk registry P).run formula store) ∧
    ∀ (e : Expr Float) (env : Environment Float),
      (e.depth ≤ env.policy.maxDepth → ∀ limit, (e.evaluate env).result ≠ .error (.limit (.depth limit))) ∧
      (env.policy.maxDepth < e.depth → ∀ v, (e.evaluate env).result ≠ .ok v) := by
  refine ⟨?_, fun e env => ⟨?_, Expr.evaluate_ne_ok⟩⟩
  · intro registry formula store h
    let low : Engine := ⟨registry, P⟩
    let high : Engine := ⟨registry, Q⟩
    have hread : ∀ excess, low.parse formula ≠ .error (.limit excess) := by
      intro excess herror
      exact h excess (by rw [run_of_parse_eq_error herror])
    have hparse : high.parse formula = low.parse formula := Formula.parse_of_limits_le hdepth hlength hread
    cases hlow : low.parse formula with
    | error error => rw [run_of_parse_eq_error hlow, run_of_parse_eq_error (hparse.trans hlow)]
    | ok e =>
      obtain ⟨-, -, hfits⟩ : _ ∧ _ ∧ e.depth ≤ P.maxDepth := Formula.parse_eq_ok_iff.1 hlow
      rw [run_of_parse_eq_ok hlow, run_of_parse_eq_ok (hparse.trans hlow)]
      refine Expr.evaluateAt_eq_of_fits 0 e ?_ ?_ <;> rw [Nat.zero_add]
      · exact hfits.trans hdepth
      · exact hfits
  · intro hfits limit
    exact Expr.evaluate_ne_limit hfits (.depth limit)

/-- Calls inside of each other, under limits that they just keep and under the standard ones; their tree exceeds a
limit of one call. -/
theorem run_of_limits_le_nested :
    let s : Series Float := ⟨"gdp", [⟨"2020-01-01", some 1⟩, ⟨"2020-02-01", none⟩, ⟨"2020-03-01", some 3⟩,
      ⟨"2020-04-01", some 6⟩, ⟨"2020-05-01", some 2⟩]⟩
    let store : Store Float := fun id => if id = "gdp" then some s else none
    let formula := "MOMENTUM(MA(GDP,2),1)"
    let e : Expr Float := .call "MOMENTUM" [.call "MA" [.identifier "GDP", .literal 2], .literal 1]
    let low : Policy := ⟨2, 21⟩
    low.maxDepth ≤ Policy.standard.maxDepth ∧ low.maxLength ≤ Policy.standard.maxLength ∧
      (∀ excess, ((Engine.mk .builtin low).run formula store).result ≠ .error (.limit excess)) ∧
      Engine.standard.run formula store = (Engine.mk .builtin low).run formula store ∧
      (∀ limit, (e.evaluate ⟨store, .builtin, low⟩).result ≠ .error (.limit (.depth limit))) ∧
      ∀ v, (e.evaluate ⟨store, .builtin, ⟨1, 21⟩⟩).result ≠ .ok v := by
  have hread : Formula.parse ⟨2, 21⟩ "MOMENTUM(MA(GDP,2),1)" =
      .ok (.call "MOMENTUM" [.call "MA" [.identifier "GDP", .literal 2], .literal 1]) := by with_unfolding_all rfl
  intro s store formula e low
  have hparse : (Engine.mk .builtin low).parse formula = .ok e := hread
  have hvalue : (e.evaluate ⟨store, .builtin, low⟩).result =
      .ok (.series ⟨"MOMENTUM(MA(gdp,2),1)", [⟨"2020-04-01", some 2.5⟩, ⟨"2020-05-01", some (-0.5)⟩]⟩) := by
    decide +kernel
  have hrun : ∀ excess, ((Engine.mk .builtin low).run formula store).result ≠ .error (.limit excess) := by
    intro excess
    rw [run_of_parse_eq_ok hparse, hvalue]
    exact nofun
  have hdepth : low.maxDepth ≤ Policy.standard.maxDepth := by decide
  have hlength : low.maxLength ≤ Policy.standard.maxLength := by decide
  obtain ⟨hruns, htrees⟩ := run_of_limits_le hdepth hlength
  exact ⟨hdepth, hlength, hrun, hruns .builtin formula store hrun, (htrees e _).1 (by decide), (htrees e _).2 (by decide)⟩

/-! ### Ledgers -/

/-- The value of a formula, and the ledger with the records of its calls. -/
def runInto (engine : Engine) (formula : String) (store : Store Float) (ledger : Ledger Float) :
    Except (FormulaError Float) (Value Float) × Ledger Float :=
  match engine.parse formula with
  | .error error => (.error error, ledger)
  | .ok e => e.evaluateInto ⟨store, engine.registry, engine.policy⟩ 0 ledger

/-- The records of a formula stand behind those that the ledger holds. -/
theorem runInto_eq (engine : Engine) (formula : String) (store : Store Float) (ledger : Ledger Float) :
    engine.runInto formula store ledger =
      ((engine.run formula store).result, ledger.append (engine.run formula store).records) := by
  rw [runInto]
  cases hparse : engine.parse formula with
  | error error => rw [run_of_parse_eq_error hparse, Ledger.append_nil]
  | ok e =>
    rw [run_of_parse_eq_ok hparse]
    exact Expr.evaluateInto_eq _ 0 ledger e

/-- **A formula that is refused for its text or for a limit leaves no trace and has not looked at the data.** The ledger
stays as it is, and with any other data, functions and ledger the formula is refused with the same error. -/
theorem runInto_of_isOfText {ledger : Ledger Float} {error : FormulaError Float} (htext : error.IsOfText)
    (h : (engine.runInto formula store ledger).1 = .error error) :
    (engine.runInto formula store ledger).2 = ledger ∧
      ∀ (registry : Registry Float) (store' : Store Float) (ledger' : Ledger Float),
        (Engine.mk registry engine.policy).runInto formula store' ledger' = (.error error, ledger') := by
  rw [runInto_eq] at h
  have hparse : Formula.parse engine.policy formula = .error error := parse_of_isOfText htext h
  constructor
  · rw [runInto_eq, run_of_parse_eq_error hparse, Ledger.append_nil]
  · intro registry store' ledger'
    have hparse' : (Engine.mk registry engine.policy).parse formula = .error error := hparse
    rw [runInto_eq, run_of_parse_eq_error hparse', Ledger.append_nil]

/-- The second argument is nested too deep, behind a first one whose call would have been recorded. -/
theorem runInto_of_isOfText_depth :
    let engine : Engine := ⟨.builtin, ⟨2, 40⟩⟩
    let formula := "MA(SUM(GDP),AVG(MAX(GDP)))"
    let store : Store Float := fun id => if id = "gdp" then some ⟨"gdp", [⟨"2020-01-01", some 1⟩]⟩ else none
    let ledger : Ledger Float := ⟨[⟨1, "COUNT", [.series], .scalar 1⟩]⟩
    let error : FormulaError Float := .limit (.depth 2)
    error.IsOfText ∧ (engine.runInto formula store ledger).1 = .error error ∧
      (engine.runInto formula store ledger).2 = ledger ∧
      ∀ (registry : Registry Float) (store' : Store Float) (ledger' : Ledger Float),
        (Engine.mk registry engine.policy).runInto formula store' ledger' = (.error error, ledger') := by
  have hread : Formula.parse ⟨2, 40⟩ "MA(SUM(GDP),AVG(MAX(GDP)))" = .error (.limit (.depth 2)) := by
    with_unfolding_all rfl
  intro engine formula store ledger error
  have hparse : engine.parse formula = .error error := hread
  have htext : error.IsOfText := trivial
  have herror : (engine.runInto formula store ledger).1 = .error error := by rw [runInto, hparse]
  exact ⟨htext, herror, runInto_of_isOfText htext herror⟩

end Engine

end SeriesFormula
