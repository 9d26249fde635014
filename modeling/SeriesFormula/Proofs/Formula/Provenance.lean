import SeriesFormula.Proofs.Formula.Builtin
import SeriesFormula.Proofs.Series.Validation

/-!
# Where the labels of a result come from

The first arguments of an expression lead from the outermost call down to what is no call (`Expr.origin?`). A series
that is computed with built-in functions stands at labels of the series there, in their order and only where that has a
value (`evaluate_series_provenance`), since each function stands at its first argument. So labels that are in order stay
in order.
-/

namespace SeriesFormula

variable {α : Type}

/-- The identifier to which the first arguments of the calls lead. -/
def Expr.origin? : Expr α → Option String
  | call _ [] => none
  | call _ (e :: _) => e.origin?
  | identifier name => some name
  | literal _ => none

/-! ## Positions -/

/-- What is taken out of the observations of a series stands at some of its positions, and has the labels there. -/
theorem Series.exists_take {s : Series α} {os : List (Observation α)} (h : os.Sublist s.observations) :
    ∃ positions : List Nat, positions.Pairwise (· < ·) ∧ s.index.take positions = ⟨os.map (·.date)⟩ ∧
      ∀ i ∈ positions, i < s.length ∧ ∃ o ∈ os, s.observation? i = some o := by
  obtain ⟨is, rfl, his⟩ := List.sublist_eq_map_getElem h
  refine ⟨is.map Fin.val, List.pairwise_map.2 his, ?_, ?_⟩
  · simp [DateIndex.take, DateIndex.label?, index, Function.comp_def]
  · intro i hi
    obtain ⟨place, hplace, rfl⟩ := List.mem_map.1 hi
    exact ⟨place.isLt, _, List.mem_map_of_mem hplace, List.getElem?_eq_getElem place.isLt⟩

theorem Series.isMissing_of_mem_present (s : Series α) {o : Observation α} (h : o ∈ s.present.observations) :
    o.isMissing = false := by
  simpa [Observation.isMissing] using (List.mem_filter.1 h).2

namespace Expr

variable [Number α] {env : Environment α}

/-! ## Down to the origin -/

/-- **The present observations of a result stand at present ones of the series at its origin.** The result of a call has
no others, and without a call the result is that series. -/
theorem exists_origin (hregistry : env.registry.IsBuiltin) : ∀ {e : Expr α} {depth : Nat} {r : Series α},
    (e.evaluateAt env depth).result = .ok (.series r) →
    ∃ name s, e.origin? = some name ∧ env.store (Text.lower name) = some s ∧
      r.present.index.labels.Sublist s.present.index.labels ∧
      ((∃ function args, e = call function args) ∧ r.present = r ∨ e = identifier name ∧ r = s)
  | .literal value, depth, r, h => by
    rw [evaluateAt] at h
    cases h
  | .identifier name, depth, r, h => by
    rw [evaluateAt] at h
    cases hs : env.store (Text.lower name) with
    | none =>
      rw [hs] at h
      cases h
    | some s =>
      rw [hs] at h
      cases h
      exact ⟨name, r, by rw [origin?], hs, List.Sublist.refl _, .inr ⟨rfl, rfl⟩⟩
  | .call function args, depth, r, h => by
    obtain ⟨e, es, t, F, rfl, hfirst, hF, rfl⟩ := exists_first_of_call hregistry h
    obtain ⟨name, s, horigin, hs, hlabels, -⟩ := exists_origin hregistry hfirst
    refine ⟨name, s, by rw [origin?, horigin], hs, ?_, .inl ⟨⟨_, _, rfl⟩, hF.present t⟩⟩
    rw [hF.present t]
    exact (hF.labels t).trans hlabels

/-- **A series from built-in functions stands at positions of the series at its origin.** The first arguments lead to an
identifier of a stored series, and the labels of the result are those at some of its positions, in order. The result of
a call stands only where that series has a value, and has all of its own values. So if the labels of all stored series
are accepted, those of the result are accepted. -/
theorem evaluate_series_provenance (hregistry : env.registry.IsBuiltin) {e : Expr α} {r : Series α}
    (h : (e.evaluate env).result = .ok (.series r)) :
    (∃ name s, e.origin? = some name ∧ env.store (Text.lower name) = some s ∧
      ∃ positions : List Nat, positions.Pairwise (· < ·) ∧ (∀ i ∈ positions, i < s.length) ∧
        r.index = s.index.take positions ∧
        ∀ function args, e = call function args →
          (∀ i ∈ positions, ∃ o, s.observation? i = some o ∧ o.isMissing = false) ∧
          ∀ o ∈ r.observations, o.isMissing = false) ∧
    ((∀ id s, env.store id = some s → s.validate = .ok ()) → r.validate = .ok ()) := by
  obtain ⟨name, s, horigin, hs, hlabels, hr⟩ := exists_origin hregistry h
  -- the observations of the origin at which the result stands
  obtain ⟨os, hos, hdates, hcall⟩ : ∃ os : List (Observation α), os.Sublist s.observations ∧
      r.index.labels = os.map (·.date) ∧ ∀ function args, e = call function args →
        (∀ o ∈ os, o.isMissing = false) ∧ ∀ o ∈ r.observations, o.isMissing = false := by
    rcases hr with ⟨-, hr⟩ | ⟨rfl, rfl⟩
    · rw [hr] at hlabels
      obtain ⟨os, hos, hdates⟩ := List.sublist_map_iff.1 hlabels
      refine ⟨os, hos.trans List.filter_sublist, hdates, ?_⟩
      intro _ _ _
      exact ⟨fun o ho => s.isMissing_of_mem_present (hos.subset ho),
        fun o ho => r.isMissing_of_mem_present (hr.symm ▸ ho)⟩
    · exact ⟨r.observations, List.Sublist.refl _, rfl, nofun⟩
  constructor
  · obtain ⟨positions, hlt, htake, hat⟩ := Series.exists_take hos
    refine ⟨name, s, horigin, hs, positions, hlt, fun i hi => (hat i hi).1, ?_, ?_⟩
    · rw [htake, ← hdates]
    · intro function args he
      refine ⟨?_, (hcall function args he).2⟩
      intro i hi
      obtain ⟨-, o, ho, hoi⟩ := hat i hi
      exact ⟨o, hoi, (hcall function args he).1 o ho⟩
  · intro hvalid
    exact DateIndex.validate_of_sublist (hdates ▸ hos.map _) (hvalid _ s hs)

/-- The changes of a mean, over a series with a missing value: the first two of its four values are used up. -/
theorem evaluate_series_provenance_nested :
    let s : Series Float := ⟨"gdp", [⟨"2020-01-01", some 1⟩, ⟨"2020-02-01", none⟩, ⟨"2020-03-01", some 3⟩,
      ⟨"2020-04-01", some 6⟩, ⟨"2020-05-01", some 2⟩]⟩
    let env : Environment Float := ⟨fun id => if id = "gdp" then some s else none, .builtin, .standard⟩
    let e : Expr Float := .call "MOMENTUM" [.call "MA" [.identifier "GDP", .literal 2], .literal 1]
    let r : Series Float := ⟨"MOMENTUM(MA(gdp,2),1)", [⟨"2020-04-01", some 2.5⟩, ⟨"2020-05-01", some (-0.5)⟩]⟩
    env.registry.IsBuiltin ∧ (e.evaluate env).result = .ok (.series r) ∧
      (∃ name t, e.origin? = some name ∧ env.store (Text.lower name) = some t ∧
        ∃ positions : List Nat, positions.Pairwise (· < ·) ∧ (∀ i ∈ positions, i < t.length) ∧
          r.index = t.index.take positions ∧
          ∀ function args, e = call function args →
            (∀ i ∈ positions, ∃ o, t.observation? i = some o ∧ o.isMissing = false) ∧
            ∀ o ∈ r.observations, o.isMissing = false) ∧
      ((∀ id t, env.store id = some t → t.validate = .ok ()) → r.validate = .ok ()) := by
  intro s env e r
  have hregistry : env.registry.IsBuiltin := Registry.isBuiltin_builtin
  have hresult : (e.evaluate env).result = .ok (.series r) := by decide +kernel
  exact ⟨hregistry, hresult, evaluate_series_provenance hregistry hresult⟩

end Expr

end SeriesFormula
