import SeriesFormula.Proofs.Formula.Call
import SeriesFormula.Proofs.Formula.Evaluation
import SeriesFormula.Proofs.Result

/-!
# Ledgers are traces

`Expr.evaluateInto` writes the records of an evaluation behind those that a ledger holds.

- what it writes and gives is what `Expr.evaluateAt` gives, so the ledger does not matter (`evaluateInto_eq`);
- `Expr.callsAt` lists the calls of an expression, each behind those in its arguments. However an evaluation ends, the
  calls that are recorded stand in front of that list (`Traces`, `traces_evaluateAt`): all of them if there is a value,
  those up to a failed one if a function has refused its arguments, and successful ones only otherwise.
-/

namespace SeriesFormula

variable {α : Type}

/-! ## Evaluation with a ledger -/

theorem Ledger.append_nil (ledger : Ledger α) : ledger.append [] = ledger := by
  rw [append, List.append_nil]

theorem Ledger.append_append (ledger : Ledger α) (xs ys : List (CallRecord α)) :
    (ledger.append xs).append ys = ledger.append (xs ++ ys) := by
  simp only [append, List.append_assoc]

namespace Expr

mutual

/-- The value of an expression inside of `depth` calls, and the ledger with the records of its calls. -/
def evaluateInto [Number α] (env : Environment α) (depth : Nat) (ledger : Ledger α) :
    Expr α → Except (FormulaError α) (Value α) × Ledger α
  | literal value => (.ok (.scalar value), ledger)
  | identifier name =>
    match env.store (Text.lower name) with
    | some s => (.ok (.series s), ledger)
    | none => (.error (.unknownIdentifier name), ledger)
  | call name args =>
    match env.policy.admitDepth (depth + 1) with
    | .error excess => (.error (.limit excess), ledger)
    | .ok () =>
      match evaluateArgumentsInto env (depth + 1) ledger args with
      | (.error error, ledger) => (.error error, ledger)
      | (.ok values, ledger) =>
        match env.registry.get? name with
        | none => (.error (.unknownFunction name), ledger)
        | some spec =>
          let result := spec.call values
          (result, ledger.append [⟨depth + 1, name, values.map Value.kind, .ofResult result⟩])

/-- The values of arguments up to the first that fails, and the ledger with the records of their calls. -/
def evaluateArgumentsInto [Number α] (env : Environment α) (depth : Nat) (ledger : Ledger α) :
    List (Expr α) → Except (FormulaError α) (List (Value α)) × Ledger α
  | [] => (.ok [], ledger)
  | e :: es =>
    match evaluateInto env depth ledger e with
    | (.error error, ledger) => (.error error, ledger)
    | (.ok value, ledger) =>
      let rest := evaluateArgumentsInto env depth ledger es
      (rest.1.map (value :: ·), rest.2)

end

variable [Number α] (env : Environment α)

mutual

/-- **The value and the records do not depend on the ledger**, and the records stand behind what it holds. -/
theorem evaluateInto_eq : ∀ (depth : Nat) (ledger : Ledger α) (e : Expr α),
    e.evaluateInto env depth ledger = ((e.evaluateAt env depth).result, ledger.append (e.evaluateAt env depth).records)
  | depth, ledger, .literal value => by
    rw [evaluateInto, evaluateAt, Ledger.append_nil]
  | depth, ledger, .identifier name => by
    rw [evaluateInto, evaluateAt]
    cases env.store (Text.lower name) <;> simp only [Ledger.append_nil]
  | depth, ledger, .call name args => by
    rw [evaluateInto, evaluateAt]
    cases env.policy.admitDepth (depth + 1) with
    | error excess => simp only [Ledger.append_nil]
    | ok _ =>
      simp only [evaluateArgumentsInto_eq (depth + 1) ledger args, Environment.apply]
      cases (evaluateArguments env (depth + 1) args).result with
      | error error => rfl
      | ok values =>
        cases env.registry.get? name with
        | none => rfl
        | some spec => simp only [Ledger.append_append]

theorem evaluateArgumentsInto_eq : ∀ (depth : Nat) (ledger : Ledger α) (es : List (Expr α)),
    evaluateArgumentsInto env depth ledger es =
      ((evaluateArguments env depth es).result, ledger.append (evaluateArguments env depth es).records)
  | depth, ledger, [] => by
    rw [evaluateArgumentsInto, evaluateArguments, Ledger.append_nil]
  | depth, ledger, e :: es => by
    rw [evaluateArgumentsInto, evaluateArguments, evaluateInto_eq depth ledger e]
    cases (e.evaluateAt env depth).result with
    | error error => rfl
    | ok value => simp only [evaluateArgumentsInto_eq depth _ es, Ledger.append_append]

end

end Expr

/-! ## Calls of an expression -/

/-- A call in an expression: its depth, from one on, its function and the number of its arguments. -/
structure CallSite where
  depth : Nat
  function : String
  arity : Nat
  deriving DecidableEq

/-- The call that a record is of. -/
def CallRecord.site (record : CallRecord α) : CallSite :=
  ⟨record.depth, record.function, record.argumentKinds.length⟩

namespace Expr

mutual

/-- The calls of an expression inside of `depth` calls, each behind those in its arguments. -/
def callsAt (depth : Nat) : Expr α → List CallSite
  | call name args => callsOfList (depth + 1) args ++ [⟨depth + 1, name, args.length⟩]
  | identifier _ => []
  | literal _ => []

/-- The calls of a list of expressions. -/
def callsOfList (depth : Nat) : List (Expr α) → List CallSite
  | [] => []
  | e :: es => callsAt depth e ++ callsOfList depth es

end

/-- The calls of an expression. -/
def calls (e : Expr α) : List CallSite := e.callsAt 0

end Expr

/-! ## Traces -/

/-- The function has failed. -/
def CallOutcome.IsFailed : CallOutcome α → Prop
  | failed _ => True
  | _ => False

/-- The calls have succeeded, none of them nested too deep. -/
def Completed (policy : Policy) (records : List (CallRecord α)) : Prop :=
  ∀ r ∈ records, r.depth ≤ policy.maxDepth ∧ ¬r.outcome.IsFailed

/-- An error of a function for its arguments. -/
def FormulaError.IsOfCall : FormulaError α → Prop
  | wrongArity .. | invalidPeriods .. | wrongArgumentKind .. => True
  | _ => False

/-- An error before any function is called: of a name or of the limit on the depth. -/
def FormulaError.IsOfSearch (policy : Policy) : FormulaError α → Prop
  | unknownIdentifier _ | unknownFunction _ => True
  | limit excess => excess = .depth policy.maxDepth
  | _ => False

theorem FormulaError.IsMisuse.isOfCall {error : FormulaError α} (h : error.IsMisuse) : error.IsOfCall := by
  cases error <;> simp_all [IsMisuse, IsOfCall]

theorem FormulaError.IsOfCall.not_isOfSearch {policy : Policy} {error : FormulaError α} (h : error.IsOfCall) :
    ¬error.IsOfSearch policy := by
  cases error <;> simp_all [IsOfCall, IsOfSearch]

/-- The records of an evaluation in which the calls `sites` are to be made. -/
inductive Traces [Number α] (policy : Policy) (sites : List CallSite) {β : Type} : Evaluation α β → Prop
  /-- There is a value, and all calls have been made. -/
  | value (v : β) {records : List (CallRecord α)} : Completed policy records →
      records.map CallRecord.site = sites → Traces policy sites ⟨.ok v, records⟩
  /-- The last call that has been made has failed. -/
  | call {error : FormulaError α} {records : List (CallRecord α)} {last : CallRecord α} : error.IsOfCall →
      Completed policy records → last.depth ≤ policy.maxDepth → last.outcome = .failed error.message →
      (records ++ [last]).map CallRecord.site <+: sites → Traces policy sites ⟨.error error, records ++ [last]⟩
  /-- All calls that have been made have succeeded. -/
  | search {error : FormulaError α} {records : List (CallRecord α)} : error.IsOfSearch policy →
      Completed policy records → records.map CallRecord.site <+: sites → Traces policy sites ⟨.error error, records⟩

theorem completed_nil {policy : Policy} : Completed policy ([] : List (CallRecord α)) := fun _ h => by cases h

theorem completed_append {policy : Policy} {xs ys : List (CallRecord α)} (hx : Completed policy xs)
    (hy : Completed policy ys) : Completed policy (xs ++ ys) := List.forall_mem_append.2 ⟨hx, hy⟩

section Steps

variable [Number α] {policy : Policy} {sites more : List CallSite} {β γ : Type}

/-- Calls that are still to be made do not matter to an evaluation that has failed. -/
theorem Traces.error_append {error : FormulaError α} {records : List (CallRecord α)}
    (h : Traces policy sites (⟨.error error, records⟩ : Evaluation α β)) :
    Traces policy (sites ++ more) (⟨.error error, records⟩ : Evaluation α γ) := by
  cases h with
  | call he hr hd ho hs => exact .call he hr hd ho (hs.trans (List.prefix_append _ _))
  | search he hr hs => exact .search he hr (hs.trans (List.prefix_append _ _))

/-- An evaluation behind one that has a value. -/
theorem Traces.append {records : List (CallRecord α)} {rest : Evaluation α β} (f : β → γ)
    (hr : Completed policy records) (hs : records.map CallRecord.site = sites) (h : Traces policy more rest) :
    Traces policy (sites ++ more) ⟨rest.result.map f, records ++ rest.records⟩ := by
  cases h with
  | value v hr' hs' => exact .value (f v) (completed_append hr hr') (by rw [List.map_append, hs, hs'])
  | @call error records' last he hr' hd ho hs' =>
    rw [← List.append_assoc]
    refine .call he (completed_append hr hr') hd ho ?_
    rw [List.append_assoc, List.map_append, hs]
    exact (List.prefix_append_right_inj sites).2 hs'
  | search he hr' hs' =>
    refine .search he (completed_append hr hr') ?_
    rw [List.map_append, hs]
    exact (List.prefix_append_right_inj sites).2 hs'

/-- What a function refuses is an error of the call. -/
theorem FunctionSpec.isOfCall_of_call {spec : FunctionSpec α} {values : List (Value α)} {error : FormulaError α}
    (h : spec.call values = .error error) : error.IsOfCall := by
  have hends := spec.ends_call values
  rw [h] at hends
  cases hends with
  | periods x _ => trivial
  | misuse _ he => exact he.isOfCall

/-- A value is no failure. -/
theorem CallOutcome.not_isFailed_ofResult (v : Value α) : ¬(CallOutcome.ofResult (.ok v)).IsFailed := by
  cases v <;> exact id

/-- **One call**, behind the evaluation of its arguments. -/
theorem Traces.apply {env : Environment α} {depth n : Nat} {name : String} {args : Evaluation α (List (Value α))}
    (h : Traces env.policy sites args) (hdepth : depth ≤ env.policy.maxDepth)
    (hn : ∀ values, args.result = .ok values → values.length = n) :
    Traces env.policy (sites ++ [⟨depth, name, n⟩]) (env.apply depth name args) := by
  obtain ⟨result, records⟩ := args
  cases result with
  | error error => exact h.error_append
  | ok values =>
    obtain ⟨_, hr, hs⟩ := h
    have hsites : ∀ outcome, (records ++ [(⟨depth, name, values.map Value.kind, outcome⟩ : CallRecord α)]).map
        CallRecord.site = sites ++ [⟨depth, name, n⟩] := fun outcome => by
      rw [List.map_append, hs, List.map_singleton, CallRecord.site, List.length_map, hn values rfl]
    cases hget : env.registry.get? name with
    | none =>
      rw [Environment.apply_of_none depth hget]
      exact .search trivial hr (hs ▸ List.prefix_append _ _)
    | some spec =>
      rw [Environment.apply_of_some depth hget]
      cases hcall : spec.call values with
      | ok v =>
        have hlast : Completed env.policy [⟨depth, name, values.map Value.kind, .ofResult (.ok v)⟩] := by
          rintro _ (_ | ⟨_, ⟨⟩⟩)
          exact ⟨hdepth, CallOutcome.not_isFailed_ofResult v⟩
        exact .value v (completed_append hr hlast) (hsites _)
      | error error => exact .call (FunctionSpec.isOfCall_of_call hcall) hr hdepth rfl (hsites _ ▸ List.prefix_rfl)

/-! ### What a trace says -/

theorem Traces.front {x : Evaluation α β} (h : Traces policy sites x) : x.records.map CallRecord.site <+: sites := by
  cases h with
  | value _ _ hs => exact hs ▸ List.prefix_rfl
  | call _ _ _ _ hs => exact hs
  | search _ _ hs => exact hs

theorem Traces.depth_le {x : Evaluation α β} (h : Traces policy sites x) :
    ∀ r ∈ x.records, r.depth ≤ policy.maxDepth := by
  cases h with
  | value _ hr _ => exact fun r hm => (hr r hm).1
  | call _ hr hd _ _ => exact List.forall_mem_append.2 ⟨fun r hm => (hr r hm).1, List.forall_mem_singleton.2 hd⟩
  | search _ hr _ => exact fun r hm => (hr r hm).1

/-- Behind a value stand all calls, and all of them have succeeded. -/
theorem Traces.of_ok {x : Evaluation α β} {v : β} (h : Traces policy sites x) (hx : x.result = .ok v) :
    x.records.map CallRecord.site = sites ∧ Completed policy x.records := by
  cases h with
  | value _ hr hs => exact ⟨hs, hr⟩
  | call => cases hx
  | search => cases hx

/-- Behind an error of a call stands that call, with the error's message; behind others all calls have succeeded. -/
theorem Traces.of_error {x : Evaluation α β} {error : FormulaError α} (h : Traces policy sites x)
    (hx : x.result = .error error) :
    (error.IsOfCall ∧ ∃ records last, x.records = records ++ [last] ∧ Completed policy records ∧
      last.outcome = .failed error.message) ∨
    (error.IsOfSearch policy ∧ Completed policy x.records) := by
  cases h with
  | value => cases hx
  | call he hr _ ho _ =>
    cases hx
    exact .inl ⟨he, _, _, rfl, hr, ho⟩
  | search he hr _ =>
    cases hx
    exact .inr ⟨he, hr⟩

end Steps

/-! ## Evaluations -/

namespace Expr

variable [Number α] (env : Environment α)

mutual

/-- **However an evaluation ends, its records are those of the calls up to there.** -/
theorem traces_evaluateAt : ∀ (depth : Nat) (e : Expr α), Traces env.policy (e.callsAt depth) (e.evaluateAt env depth)
  | _, .literal value => by
    rw [callsAt, evaluateAt]
    exact .value _ completed_nil rfl
  | _, .identifier name => by
    rw [callsAt, evaluateAt]
    cases env.store (Text.lower name) with
    | none => exact .search trivial completed_nil List.prefix_rfl
    | some s => exact .value _ completed_nil rfl
  | depth, .call name args => by
    rw [callsAt, evaluateAt_call]
    split
    · exact .search rfl completed_nil List.nil_prefix
    · exact (traces_evaluateArguments (depth + 1) args).apply (by omega) fun _ => length_of_evaluateArguments env

theorem traces_evaluateArguments : ∀ (depth : Nat) (es : List (Expr α)),
    Traces env.policy (callsOfList depth es) (evaluateArguments env depth es)
  | _, [] => by
    rw [callsOfList, evaluateArguments]
    exact .value _ completed_nil rfl
  | depth, e :: es => by
    have hfirst := traces_evaluateAt depth e
    have hrest := traces_evaluateArguments depth es
    rw [callsOfList, evaluateArguments]
    generalize e.evaluateAt env depth = first at hfirst
    obtain ⟨result, records⟩ := first
    cases result with
    | error error => exact hfirst.error_append
    | ok value =>
      obtain ⟨_, hr, hs⟩ := hfirst
      exact hrest.append _ hr hs

end

/-- The last record of a call with a value is the call's. -/
theorem exists_last_of_apply {depth : Nat} {name : String} {args : Evaluation α (List (Value α))} {v : Value α}
    (h : (env.apply depth name args).result = .ok v) :
    ∃ last, (env.apply depth name args).records.getLast? = some last ∧ last.outcome = .ofResult (.ok v) := by
  obtain ⟨result, records⟩ := args
  cases result with
  | error error => cases h
  | ok values =>
    cases hget : env.registry.get? name with
    | none =>
      rw [Environment.apply_of_none depth hget] at h
      cases h
    | some spec =>
      rw [Environment.apply_of_some depth hget] at h ⊢
      exact ⟨_, List.getLast?_concat, congrArg CallOutcome.ofResult h⟩

/-- **A ledger is the exact trace of an evaluation.** Evaluating an expression puts records behind those of any ledger,
and neither they nor the result depend on what the ledger holds. They are of the calls in front of the list of the
expression's calls, none of them nested too deep. With a value they are of all calls, none has failed, and the last
record of a call has the call's value or the length of its series. With an error no record but the last one has failed;
the last one has, with the error's message, if the error is a function's for its arguments, and none has otherwise. -/
theorem ledger_is_trace (e : Expr α) :
    (∀ ledger, e.evaluateInto env 0 ledger = ((e.evaluate env).result, ledger.append (e.evaluate env).records)) ∧
    (e.evaluate env).records.map CallRecord.site <+: e.calls ∧
    (∀ r ∈ (e.evaluate env).records, r.depth ≤ env.policy.maxDepth) ∧
    (∀ v, (e.evaluate env).result = .ok v →
      (e.evaluate env).records.map CallRecord.site = e.calls ∧
      (∀ r ∈ (e.evaluate env).records, ¬r.outcome.IsFailed) ∧
      ∀ name args, e = call name args → ∃ last, (e.evaluate env).records.getLast? = some last ∧
        (∀ x, v = .scalar x → last.outcome = .scalar x) ∧ (∀ s, v = .series s → last.outcome = .series s.length)) ∧
    (∀ error, (e.evaluate env).result = .error error →
      (error.IsOfCall ∨ error.IsOfSearch env.policy) ∧
      (∀ r ∈ (e.evaluate env).records.dropLast, ¬r.outcome.IsFailed) ∧
      (error.IsOfCall →
        ∃ last, (e.evaluate env).records.getLast? = some last ∧ last.outcome = .failed error.message) ∧
      (error.IsOfSearch env.policy → ∀ r ∈ (e.evaluate env).records, ¬r.outcome.IsFailed)) := by
  have htrace : Traces env.policy e.calls (e.evaluate env) := traces_evaluateAt env 0 e
  refine ⟨fun ledger => evaluateInto_eq env 0 ledger e, htrace.front, htrace.depth_le, fun v hv => ?_,
    fun error herror => ?_⟩
  · obtain ⟨hs, hr⟩ := htrace.of_ok hv
    refine ⟨hs, fun r hm => (hr r hm).2, ?_⟩
    rintro name args rfl
    rw [evaluate, evaluateAt_call] at hv ⊢
    split at hv
    · cases hv
    · rename_i hd
      rw [if_neg hd]
      obtain ⟨last, hlast, ho⟩ := exists_last_of_apply env hv
      refine ⟨last, hlast, ?_, ?_⟩ <;> rintro _ rfl <;> exact ho
  · rcases htrace.of_error herror with ⟨he, records, last, hx, hr, ho⟩ | ⟨he, hr⟩
    · rw [hx, List.dropLast_concat, List.getLast?_concat]
      refine ⟨.inl he, fun r hm => (hr r hm).2, fun _ => ⟨last, rfl, ho⟩,
        fun hs => absurd hs he.not_isOfSearch⟩
    · exact ⟨.inr he, fun r hm => (hr r (List.dropLast_subset _ hm)).2, fun hc => absurd he hc.not_isOfSearch,
        fun _ r hm => (hr r hm).2⟩

end Expr

end SeriesFormula
