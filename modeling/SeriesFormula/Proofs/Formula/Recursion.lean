import SeriesFormula.Proofs.Formula.Reading
import SeriesFormula.Proofs.Formula.Trace

/-!
# Bounded recursion

The reader and the evaluator go down from a call to its arguments. `Formula.parseStep` and `Expr.evaluateStep` are one
level of each, which leaves the arguments to a parameter. `cutOff` puts a number of levels below each other and lets
anything at all answer for what the last one leaves.

- levels are enough if there are more of them than the part is large, where parts become smaller on the way down
  (`cutOff_eq`);
- the reader leaves nothing of a call that is nested too deep, and shorter texts of all others. A part is as large as the
  lesser of the number of calls that are still allowed and the length of its text (`Formula.cutOff_parseStep`), so that
  either of the two is enough to end;
- the evaluator leaves nothing of such a call either (`Expr.cutOff_evaluateStep`), so that the arguments may be removed
  (`Expr.pruned`, `Expr.evaluateAt_prunedAt`).
-/

namespace SeriesFormula

section CutOff

variable {σ β : Type}

/-- A recursion of a number of levels, the first of them inside of `depth` calls. What the last one leaves is answered by
`beyond`. -/
def cutOff (step : Nat → (σ → β) → σ → β) (beyond : Nat → σ → β) : Nat → Nat → σ → β
  | 0, depth => beyond depth
  | levels + 1, depth => step depth (cutOff step beyond levels (depth + 1))

/-- **A recursion is never cut off if it has more levels than its part is large**, where a level gives what `f` does if
the one below gives that for smaller parts. -/
theorem cutOff_eq {step : Nat → (σ → β) → σ → β} {f : Nat → σ → β} (size : Nat → σ → Nat)
    (hstep : ∀ depth below x, (∀ y, size (depth + 1) y < size depth x → below y = f (depth + 1) y) →
      step depth below x = f depth x)
    (beyond : Nat → σ → β) {levels depth : Nat} {x : σ} (h : size depth x < levels) :
    cutOff step beyond levels depth x = f depth x := by
  -- each level takes one off the number of levels and at least one off the size
  induction levels generalizing depth x with
  | zero => exact absurd h (Nat.not_lt_zero _)
  | succ levels ih => exact hstep depth _ x fun y hy => ih (Nat.lt_of_lt_of_le hy (Nat.le_of_lt_succ h))

end CutOff

/-! ## The reader -/

namespace Formula

variable {policy : Policy} {depth : Nat} {cs : List Char}

/-- One level of the reader, which reads the arguments of a call by `below`. -/
def parseStep (policy : Policy) (depth : Nat) (below : List Char → Except (FormulaError Float) (Expr Float))
    (cs : List Char) : Except (FormulaError Float) (Expr Float) :=
  match splitCall cs with
  | none => parseLeaf cs
  | some (name, inner) => do
    (policy.admitDepth (depth + 1)).mapError .limit
    let args ← (splitArguments inner).mapM below
    return .call (String.ofList name) args

theorem parseStep_of_call {below : List Char → Except (FormulaError Float) (Expr Float)} {name inner : List Char}
    (h : splitCall cs = some (name, inner)) :
    parseStep policy depth below cs = if policy.maxDepth ≤ depth then .error (.limit (.depth policy.maxDepth))
      else ((splitArguments inner).mapM below).map (.call (String.ofList name)) := by
  rw [parseStep, h, Policy.admitDepth]
  dsimp only
  by_cases hlimit : policy.maxDepth ≤ depth
  · rw [if_pos (Nat.lt_succ_of_le hlimit), if_pos hlimit]
    rfl
  · rw [if_neg (by omega), if_neg hlimit]
    cases (splitArguments inner).mapM below <;> rfl

/-- The reader leaves only parts to the level below for which fewer calls are allowed and whose texts are shorter. -/
theorem parseStep_eq {below : List Char → Except (FormulaError Float) (Expr Float)}
    (h : ∀ piece, min (policy.maxDepth - (depth + 1)) piece.length < min (policy.maxDepth - depth) cs.length →
      below piece = parseNode policy (depth + 1) piece) : parseStep policy depth below cs = parseNode policy depth cs := by
  cases hcall : splitCall cs with
  | none => rw [parseStep, hcall, parseNode_of_leaf hcall]
  | some call =>
    obtain ⟨name, inner⟩ := call
    rw [parseStep_of_call hcall, parseNode_of_call hcall]
    -- at the limit no argument is looked at; else both sizes of an argument are less than those of the call
    by_cases hlimit : policy.maxDepth ≤ depth
    · rw [if_pos hlimit, if_pos hlimit]
    · have hargs : (splitArguments inner).mapM below = (splitArguments inner).mapM (parseNode policy (depth + 1)) := by
        refine mapM_congr fun piece hmem => h piece ?_
        have hlength := length_lt_of_argument hcall hmem
        omega
      rw [if_neg hlimit, if_neg hlimit, hargs]

/-- **The reader is not cut off below the calls that are allowed, and not below the length of its text.** -/
theorem cutOff_parseStep (beyond : Nat → List Char → Except (FormulaError Float) (Expr Float)) {levels : Nat}
    (h : min (policy.maxDepth - depth) cs.length < levels) :
    cutOff (parseStep policy) beyond levels depth cs = parseNode policy depth cs :=
  cutOff_eq (fun depth cs => min (policy.maxDepth - depth) cs.length) (fun _ _ _ => parseStep_eq) beyond h

/-- One level less is too few: the inner call is left to it, and is refused there. -/
example : cutOff (parseStep ⟨1, 40⟩) (fun _ _ => .error .empty) 1 0 ['F', '(', 'G', '(', ')', ')'] = .error .empty ∧
    parseNode ⟨1, 40⟩ 0 ['F', '(', 'G', '(', ')', ')'] = .error (.limit (.depth 1)) :=
  ⟨rfl, by with_unfolding_all rfl⟩

/-- The reader of formulas, with its recursion cut off. -/
def parseCutOff (policy : Policy) (beyond : Nat → List Char → Except (FormulaError Float) (Expr Float)) (levels : Nat)
    (formula : String) : Except (FormulaError Float) (Expr Float) := do
  (policy.admitFormula formula).mapError .limit
  let cs := Text.squeeze formula.toList
  if cs.isEmpty then throw .empty
  cutOff (parseStep policy) beyond levels 0 cs

theorem parseCutOff_eq {formula : String} (beyond : Nat → List Char → Except (FormulaError Float) (Expr Float))
    {levels : Nat} (h : min policy.maxDepth formula.length < levels) :
    parseCutOff policy beyond levels formula = parse policy formula := by
  have hlength : (Text.squeeze formula.toList).length ≤ formula.length := by
    rw [← String.length_toList]
    exact List.length_filter_le _ _
  have hnode : cutOff (parseStep policy) beyond levels 0 (Text.squeeze formula.toList) =
      parseNode policy 0 (Text.squeeze formula.toList) := cutOff_parseStep beyond (by omega)
  simp only [parseCutOff, parse, hnode]

end Formula

/-! ## The evaluator -/

namespace Expr

variable {α : Type}

section Evaluator

variable [Number α] {env : Environment α} {depth : Nat}

/-- The values that `below` gives arguments, up to the first that fails. -/
def evaluateEach (below : Expr α → Evaluation α (Value α)) : List (Expr α) → Evaluation α (List (Value α))
  | [] => ⟨.ok [], []⟩
  | e :: es =>
    let first := below e
    match first.result with
    | .error error => ⟨.error error, first.records⟩
    | .ok value =>
      let rest := evaluateEach below es
      ⟨rest.result.map (value :: ·), first.records ++ rest.records⟩

/-- One level of the evaluator, which evaluates the arguments of a call by `below`. -/
def evaluateStep (env : Environment α) (depth : Nat) (below : Expr α → Evaluation α (Value α)) :
    Expr α → Evaluation α (Value α)
  | literal value => ⟨.ok (.scalar value), []⟩
  | identifier name =>
    match env.store (Text.lower name) with
    | some s => ⟨.ok (.series s), []⟩
    | none => ⟨.error (.unknownIdentifier name), []⟩
  | call name args =>
    match env.policy.admitDepth (depth + 1) with
    | .error excess => ⟨.error (.limit excess), []⟩
    | .ok () => env.apply (depth + 1) name (evaluateEach below args)

theorem evaluateArguments_eq (es : List (Expr α)) :
    evaluateArguments env depth es = evaluateEach (evaluateAt env depth) es := by
  induction es with
  | nil => rw [evaluateArguments, evaluateEach]
  | cons e es ih =>
    cases hfirst : (e.evaluateAt env depth).result <;> simp only [evaluateArguments, evaluateEach, hfirst, ih]

/-- The evaluator leaves nothing to the level below unless more calls are allowed. -/
theorem evaluateStep_eq {below : Expr α → Evaluation α (Value α)} {e : Expr α}
    (h : depth < env.policy.maxDepth → below = evaluateAt env (depth + 1)) :
    evaluateStep env depth below e = e.evaluateAt env depth := by
  cases e with
  | literal value => rw [evaluateStep, evaluateAt]
  | identifier name =>
    cases hs : env.store (Text.lower name) <;> simp only [evaluateStep, evaluateAt, hs]
  | call name args =>
    rw [evaluateStep, evaluateAt_call, Policy.admitDepth]
    by_cases hlimit : env.policy.maxDepth ≤ depth
    · rw [if_pos (Nat.lt_succ_of_le hlimit), if_pos hlimit]
    · rw [if_neg (by omega), if_neg hlimit, evaluateArguments_eq, h (Nat.lt_of_not_le hlimit)]

/-- **The evaluator is not cut off below the calls that are allowed.** -/
theorem cutOff_evaluateStep (beyond : Nat → Expr α → Evaluation α (Value α)) {levels : Nat} {e : Expr α}
    (h : env.policy.maxDepth - depth < levels) :
    cutOff (evaluateStep env) beyond levels depth e = e.evaluateAt env depth := by
  refine cutOff_eq (fun depth _ => env.policy.maxDepth - depth) (fun depth below e hbelow => ?_) beyond h
  exact evaluateStep_eq fun hlimit => funext fun y => hbelow y (by omega)

end Evaluator

/-! ### Trees without what is nested too deep -/

mutual

/-- An expression inside of `depth` calls, with the arguments of all calls removed that are nested deeper than
`limit`. -/
def prunedAt (limit depth : Nat) : Expr α → Expr α
  | call name args => call name (if limit < depth + 1 then [] else prunedArguments limit (depth + 1) args)
  | identifier name => identifier name
  | literal value => literal value

def prunedArguments (limit depth : Nat) : List (Expr α) → List (Expr α)
  | [] => []
  | e :: es => e.prunedAt limit depth :: prunedArguments limit depth es

end

/-- An expression with the arguments of all calls removed that are nested deeper than `limit`. -/
def pruned (limit : Nat) (e : Expr α) : Expr α := e.prunedAt limit 0

mutual

/-- What is left of an expression inside of `depth` calls ends with the first calls that are nested too deep. -/
theorem depth_prunedAt_le (limit : Nat) : ∀ (depth : Nat) (e : Expr α), depth ≤ limit →
    depth + (e.prunedAt limit depth).depth ≤ limit + 1
  | _, .literal value, h => by
    rw [prunedAt, Expr.depth]
    omega
  | _, .identifier name, h => by
    rw [prunedAt, Expr.depth]
    omega
  | depth, .call name args, h => by
    rw [prunedAt, Expr.depth]
    split
    · rw [depthOfList]
      omega
    · have hargs := depthOfList_prunedArguments_le limit (depth + 1) args (by omega)
      omega

theorem depthOfList_prunedArguments_le (limit : Nat) : ∀ (depth : Nat) (es : List (Expr α)), depth ≤ limit →
    depth + depthOfList (prunedArguments limit depth es) ≤ limit + 1
  | _, [], h => by
    rw [prunedArguments, depthOfList]
    omega
  | depth, e :: es, h => by
    rw [prunedArguments, depthOfList]
    have hfirst := depth_prunedAt_le limit depth e h
    have hrest := depthOfList_prunedArguments_le limit depth es h
    omega

end

/-- The calls that are left are nested no more than one deeper than the limit. -/
theorem depth_pruned_le (limit : Nat) (e : Expr α) : (e.pruned limit).depth ≤ limit + 1 := by
  have hdepth := depth_prunedAt_le limit 0 e (Nat.zero_le _)
  rwa [Nat.zero_add] at hdepth

section Pruned

variable [Number α] {env : Environment α}

mutual

/-- **What is nested too deep is not looked at.** -/
theorem evaluateAt_prunedAt : ∀ {depth : Nat} (e : Expr α),
    (e.prunedAt env.policy.maxDepth depth).evaluateAt env depth = e.evaluateAt env depth
  | _, .literal value => by rw [prunedAt]
  | _, .identifier name => by rw [prunedAt]
  | depth, .call name args => by
    rw [prunedAt, evaluateAt_call, evaluateAt_call]
    by_cases hlimit : env.policy.maxDepth ≤ depth
    · rw [if_pos hlimit, if_pos hlimit]
    · rw [if_neg hlimit, if_neg hlimit, if_neg (by omega), evaluateArguments_prunedArguments args]

theorem evaluateArguments_prunedArguments : ∀ {depth : Nat} (es : List (Expr α)),
    evaluateArguments env depth (prunedArguments env.policy.maxDepth depth es) = evaluateArguments env depth es
  | _, [] => by rw [prunedArguments]
  | depth, e :: es => by
    rw [prunedArguments, evaluateArguments, evaluateArguments, evaluateAt_prunedAt e,
      evaluateArguments_prunedArguments es]

end

end Pruned

end Expr

/-- **Recursion is bounded by the limit on the depth.** The reader of a formula never goes below one level more than calls
are allowed, so that it does not matter what would be answered there; and since an argument is shorter than its call, it
never goes below one level more than the text has characters, whatever the limit is. The evaluator of a tree is bounded
like the reader, and it gives the same result and the same ledger if the arguments of all calls that are nested deeper
than the limit are removed. The calls that are left are nested no more than one deeper. -/
theorem recursion_within_limit {α : Type} [Number α] :
    (∀ (policy : Policy) (formula : String),
      (∀ depth cs, Formula.parseStep policy depth (Formula.parseNode policy (depth + 1)) cs =
        Formula.parseNode policy depth cs) ∧
      (∀ beyond, Formula.parseCutOff policy beyond (policy.maxDepth + 1) formula = Formula.parse policy formula) ∧
      ∀ beyond, Formula.parseCutOff policy beyond (formula.length + 1) formula = Formula.parse policy formula) ∧
    (∀ cs name inner, Formula.splitCall cs = some (name, inner) →
      ∀ piece ∈ Formula.splitArguments inner, piece.length < cs.length) ∧
    ∀ (env : Environment α) (e : Expr α),
      (∀ depth e, Expr.evaluateStep env depth (Expr.evaluateAt env (depth + 1)) e = e.evaluateAt env depth) ∧
      (∀ beyond, cutOff (Expr.evaluateStep env) beyond (env.policy.maxDepth + 1) 0 e = e.evaluate env) ∧
      (e.pruned env.policy.maxDepth).evaluate env = e.evaluate env ∧
      (∀ ledger, (e.pruned env.policy.maxDepth).evaluateInto env 0 ledger = e.evaluateInto env 0 ledger) ∧
      (e.pruned env.policy.maxDepth).depth ≤ env.policy.maxDepth + 1 := by
  refine ⟨fun policy formula => ⟨?_, ?_, ?_⟩, fun cs name inner hcall piece => Formula.length_lt_of_argument hcall,
    fun env e => ⟨?_, ?_, ?_, ?_, e.depth_pruned_le _⟩⟩
  · exact fun depth cs => Formula.parseStep_eq fun _ _ => rfl
  · exact fun beyond => Formula.parseCutOff_eq beyond (by omega)
  · exact fun beyond => Formula.parseCutOff_eq beyond (by omega)
  · exact fun depth e => Expr.evaluateStep_eq fun _ => rfl
  · exact fun beyond => Expr.cutOff_evaluateStep beyond (Nat.lt_succ_self _)
  · exact Expr.evaluateAt_prunedAt e
  · intro ledger
    rw [Expr.evaluateInto_eq, Expr.evaluateInto_eq, Expr.pruned, Expr.evaluateAt_prunedAt]

end SeriesFormula
