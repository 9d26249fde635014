import SeriesFormula.Proofs.Formula.Kind
import SeriesFormula.Proofs.Formula.Trace

/-!
# What an evaluation looks up

The series that an expression refers to are collected apart from its evaluation (`Expr.referencedSeries`). They are
exactly what the evaluation looks up:

- environments that agree on them and on the functions of the calls give the same result and the same records
  (`evaluateAt_congr`), whatever else they hold;
- an expression that has a kind finds all of its names (`kind?_eq_some_findsAll`), so that a value is given only if none
  is missing.
-/

namespace SeriesFormula

variable {α : Type}

/-! ## Names -/

/-- The series that an expression refers to are those of its identifiers, in small letters. -/
theorem Expr.mem_referencedSeries {e : Expr α} {id : String} :
    id ∈ e.referencedSeries ↔ ∃ name ∈ e.identifiers, Text.lower name = id := by
  simp [referencedSeries]

namespace Environment

/-- The environments have one policy, and look the names up alike. -/
structure Agree (env env' : Environment α) (identifiers : List String) (calls : List CallSite) : Prop where
  policy : env.policy = env'.policy
  series : ∀ name ∈ identifiers, env.store (Text.lower name) = env'.store (Text.lower name)
  functions : ∀ call ∈ calls, env.registry.get? call.function = env'.registry.get? call.function

/-- All of the names are found. -/
structure FindsAll (env : Environment α) (identifiers : List String) (calls : List CallSite) : Prop where
  series : ∀ name ∈ identifiers, ∃ s, env.store (Text.lower name) = some s
  functions : ∀ call ∈ calls, ∃ spec, env.registry.get? call.function = some spec

variable {env env' : Environment α} {names names' : List String} {calls calls' : List CallSite}

theorem Agree.mono (h : env.Agree env' names calls) (hn : names' ⊆ names) (hc : calls' ⊆ calls) :
    env.Agree env' names' calls' :=
  ⟨h.policy, fun name hm => h.series name (hn hm), fun call hm => h.functions call (hc hm)⟩

theorem FindsAll.append (h : env.FindsAll names calls) (h' : env.FindsAll names' calls') :
    env.FindsAll (names ++ names') (calls ++ calls') where
  series := List.forall_mem_append.2 ⟨h.series, h'.series⟩
  functions := List.forall_mem_append.2 ⟨h.functions, h'.functions⟩

end Environment

namespace Expr

/-! ## Nothing else is looked up -/

section Agree

variable [Number α] {env env' : Environment α}

mutual

/-- **Environments that agree on the names of an expression evaluate it alike.** -/
theorem evaluateAt_congr : ∀ (depth : Nat) (e : Expr α), env.Agree env' e.identifiers (e.callsAt depth) →
    e.evaluateAt env depth = e.evaluateAt env' depth
  | _, .literal value, _ => by rw [evaluateAt, evaluateAt]
  | _, .identifier name, h => by
    have hname := h.series name (by simp [identifiers])
    simp only [evaluateAt, hname]
  | depth, .call name args, h => by
    have hargs : env.Agree env' (identifiersOfList args) (callsOfList (depth + 1) args) :=
      h.mono (by simp [identifiers]) (by simp [callsAt])
    have hspec : env.registry.get? name = env'.registry.get? name :=
      h.functions ⟨depth + 1, name, args.length⟩ (by simp [callsAt])
    rw [evaluateAt_call, evaluateAt_call, h.policy, evaluateArguments_congr (depth + 1) args hargs]
    simp only [Environment.apply, hspec]

theorem evaluateArguments_congr : ∀ (depth : Nat) (es : List (Expr α)),
    env.Agree env' (identifiersOfList es) (callsOfList depth es) →
    evaluateArguments env depth es = evaluateArguments env' depth es
  | _, [], _ => by rw [evaluateArguments, evaluateArguments]
  | depth, e :: es, h => by
    have hfirst := evaluateAt_congr depth e (h.mono (by simp [identifiersOfList]) (by simp [callsOfList]))
    have hrest := evaluateArguments_congr depth es (h.mono (by simp [identifiersOfList]) (by simp [callsOfList]))
    rw [evaluateArguments, evaluateArguments, hfirst, hrest]

end

end Agree

/-! ## All of it is found -/

section Found

variable {env : Environment α}

mutual

/-- The names of an expression that has a kind are all found. -/
theorem kind?_eq_some_findsAll : ∀ {depth : Nat} {e : Expr α} {kind : ValueKind},
    e.kind? env.store env.registry = some kind → env.FindsAll e.identifiers (e.callsAt depth)
  | _, .literal _, _, _ => ⟨nofun, nofun⟩
  | _, .identifier name, _, h => by
    rw [kind?, Option.map_eq_some_iff] at h
    obtain ⟨s, hs, -⟩ := h
    refine ⟨?_, nofun⟩
    intro name' hm
    rw [identifiers, List.mem_singleton] at hm
    exact ⟨s, hm ▸ hs⟩
  | depth, .call name args, _, h => by
    rw [kind?, Option.bind_eq_some_iff] at h
    obtain ⟨kinds, hargs, hcall⟩ := h
    rw [Registry.callKind?, Option.bind_eq_some_iff] at hcall
    obtain ⟨spec, hspec, -⟩ := hcall
    have hname : env.FindsAll [] [⟨depth + 1, name, args.length⟩] := by
      refine ⟨nofun, ?_⟩
      intro call hm
      rw [List.mem_singleton] at hm
      exact ⟨spec, hm ▸ hspec⟩
    have hfound : env.FindsAll (identifiersOfList args) (callsOfList (depth + 1) args) :=
      kindsOfList?_eq_some_findsAll hargs
    have hall := hfound.append hname
    rwa [List.append_nil] at hall

theorem kindsOfList?_eq_some_findsAll : ∀ {depth : Nat} {es : List (Expr α)} {kinds : List ValueKind},
    kindsOfList? env.store env.registry es = some kinds →
    env.FindsAll (identifiersOfList es) (callsOfList depth es)
  | _, [], _, _ => ⟨nofun, nofun⟩
  | _, e :: es, _, h => by
    rw [kindsOfList?, Option.bind_eq_some_iff] at h
    obtain ⟨kind, hfirst, h⟩ := h
    rw [Option.map_eq_some_iff] at h
    obtain ⟨kinds, hrest, -⟩ := h
    exact (kind?_eq_some_findsAll hfirst).append (kindsOfList?_eq_some_findsAll hrest)

end

end Found

variable [Number α]

/-- A value is given only if all names are found. -/
theorem findsAll_of_evaluate {env : Environment α} {e : Expr α} {v : Value α} (h : (e.evaluate env).result = .ok v) :
    env.FindsAll e.identifiers e.calls := by
  have hagrees : Agrees Value.kind _ _ (e.evaluate env).result := agrees_evaluateAt env (Nat.zero_le _) e
  rw [h] at hagrees
  cases hagrees with
  | value hkind _ => exact kind?_eq_some_findsAll hkind

/-- **An evaluation reads what its expression names, and all of it.** Stores that agree on the series that an expression
refers to and tables that agree on the functions that it calls give the same result and the same records. A value is
given only if all of these series are stored and all of these functions are there; a single series that is missing makes
the evaluation fail. -/
theorem evaluate_reads_names (e : Expr α) (policy : Policy) (store : Store α) (registry : Registry α) :
    (∀ (store' : Store α) (registry' : Registry α), (∀ id ∈ e.referencedSeries, store id = store' id) →
      (∀ call ∈ e.calls, registry.get? call.function = registry'.get? call.function) →
      e.evaluate ⟨store, registry, policy⟩ = e.evaluate ⟨store', registry', policy⟩) ∧
    (∀ v, (e.evaluate ⟨store, registry, policy⟩).result = .ok v →
      (∀ id ∈ e.referencedSeries, ∃ s, store id = some s) ∧
      ∀ call ∈ e.calls, ∃ spec, registry.get? call.function = some spec) ∧
    (∀ id ∈ e.referencedSeries, store id = none →
      ∃ error, (e.evaluate ⟨store, registry, policy⟩).result = .error error) := by
  have hfound : ∀ v, (e.evaluate ⟨store, registry, policy⟩).result = .ok v →
      ∀ id ∈ e.referencedSeries, ∃ s, store id = some s := by
    intro v hv id hid
    obtain ⟨name, hname, rfl⟩ := mem_referencedSeries.1 hid
    exact (findsAll_of_evaluate hv).series name hname
  refine ⟨?_, ?_, ?_⟩
  · intro store' registry' hstore hregistry
    refine evaluateAt_congr 0 e ⟨rfl, ?_, hregistry⟩
    intro name hname
    exact hstore _ (mem_referencedSeries.2 ⟨name, hname, rfl⟩)
  · intro v hv
    exact ⟨hfound v hv, (findsAll_of_evaluate hv).functions⟩
  · intro id hid hnone
    cases hresult : (e.evaluate ⟨store, registry, policy⟩).result with
    | error error => exact ⟨error, rfl⟩
    | ok v =>
      obtain ⟨s, hs⟩ := hfound v hresult id hid
      rw [hnone] at hs
      cases hs

end Expr

end SeriesFormula
