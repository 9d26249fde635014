import SeriesFormula.Json.Reader
import SeriesFormula.Proofs.Result

/-!
# What readers of documents yield

A property of all values that a reader yields, whatever the document (`Reader.Yields`), is put together from those of
the readers inside it: one lemma for each way to build a reader. Numbers are finite (`Reader.Yields.number`). A text is
accepted by a reader with a check iff it is accepted without and its value passes (`Reader.run_check_eq_ok_iff`).
-/

namespace SeriesFormula.Json.Reader

/-! ## Checks -/

section

variable {β γ δ : Type} (reader : Reader β)

theorem check_check (f : β → Except ReadError γ) (g : γ → Except ReadError δ) :
    (reader.check f).check g = reader.check fun x => f x >>= g := by
  funext mode document
  cases h : reader mode document <;> simp [check, h, bind, Except.bind]

/-- A text is refused for what stands behind its value only once the value is read. -/
theorem run_eq (text : String) : reader.run text = reader ⟨maxLevels, false⟩ (read text.toList).root >>= fun x =>
    if (read text.toList).trailing then .error (.document .syntactic) else .ok x := by
  rw [run]
  cases (read text.toList).trailing <;> rfl

/-- A text is accepted iff it is without the check, and its value passes. -/
theorem run_check_eq_ok_iff {f : β → Except ReadError γ} {text : String} {y : γ} :
    (reader.check f).run text = .ok y ↔ ∃ x, reader.run text = .ok x ∧ f x = .ok y := by
  simp only [run_eq, check, bind_eq_ok_iff]
  cases (read text.toList).trailing with
  | true => simp
  | false => simp

/-- A text that is read whole is refused only by the check. -/
theorem run_check_of_run_eq_ok (f : β → Except ReadError γ) {text : String} {x : β} (h : reader.run text = .ok x) :
    (reader.check f).run text = f x := by
  rw [run_eq] at h
  obtain ⟨x', hx, hend⟩ := bind_eq_ok_iff.1 h
  split at hend
  next => cases hend
  next htrailing =>
    cases hend
    simp only [run_eq, check, hx, htrailing, bind, Except.bind]
    cases f x <;> rfl

theorem run_check_map (f : β → Except ReadError γ) (g : γ → δ) (text : String) :
    (reader.check fun x => (f x).map g).run text = ((reader.check f).run text).map g := by
  simp only [run_eq, check, bind, Except.bind]
  cases reader ⟨maxLevels, false⟩ (read text.toList).root with
  | error => rfl
  | ok x =>
    simp only
    cases f x <;> cases (read text.toList).trailing <;> rfl

end

/-! ## Properties of values -/

variable {β γ : Type} {reader : Reader β} {P : β → Prop} {Q : γ → Prop}

/-- All values that the reader yields have the property. -/
def Yields (reader : Reader β) (P : β → Prop) : Prop :=
  ∀ mode document value, reader mode document = .ok value → P value

namespace Yields

theorem trivial (reader : Reader β) : reader.Yields fun _ => True := fun _ _ _ _ => .intro

theorem number : Reader.number.Yields fun x => Decimal.isFinite x := by
  intro mode document x h
  unfold Reader.number at h
  split at h
  · split at h
    next hfinite =>
      cases h
      exact hfinite
    next => cases h
  · cases h

theorem optional (h : reader.Yields P) : reader.optional.Yields fun value => ∀ x ∈ value, P x := by
  intro mode document value hvalue x hx
  unfold Reader.optional at hvalue
  split at hvalue
  · cases hvalue
    cases hx
  · rw [map_eq_pure_bind, bind_eq_ok_iff] at hvalue
    obtain ⟨y, hy, hvalue⟩ := hvalue
    cases hvalue
    cases hx
    exact h mode _ x hy

theorem check {f : β → Except ReadError γ} (h : reader.Yields P) (hf : ∀ x y, P x → f x = .ok y → Q y) :
    (reader.check f).Yields Q := by
  intro mode document y hy
  obtain ⟨x, hx, hfx⟩ := bind_eq_ok_iff.1 hy
  exact hf x y (h mode document x hx) hfx

theorem list (h : reader.Yields P) : reader.list.Yields fun values => ∀ x ∈ values, P x := by
  intro mode document values hvalues x hx
  unfold Reader.list at hvalues
  split at hvalues
  · simp only [bind_eq_ok_iff, pure, Except.pure, Except.ok.injEq] at hvalues
    obtain ⟨inner, -, values, hitems, -, -, rfl⟩ := hvalues
    obtain ⟨item, -, hitem⟩ := exists_of_mapM_eq_ok hitems hx
    exact h inner item x hitem
  · cases hvalues

theorem pair {first : Reader β} {second : Reader γ} (hfirst : first.Yields P) (hsecond : second.Yields Q) :
    (first.pair second).Yields fun (a, b) => P a ∧ Q b := by
  intro mode document value hvalue
  unfold Reader.pair at hvalue
  split at hvalue
  · simp only [bind_eq_ok_iff, pure, Except.pure, Except.ok.injEq] at hvalue
    obtain ⟨inner, -, ⟨item, items⟩, -, a, ha, ⟨item', items'⟩, -, b, hb, -, -, rfl⟩ := hvalue
    exact ⟨hfirst inner item a ha, hsecond inner item' b hb⟩
  · cases hvalue

/-- What holds of all values of a reader holds of the value of a text. -/
theorem run {text : String} {value : β} (h : reader.Yields P) (hrun : reader.run text = .ok value) : P value := by
  rw [run_eq] at hrun
  obtain ⟨x, hx, hend⟩ := bind_eq_ok_iff.1 hrun
  split at hend
  · cases hend
  · cases hend
    exact h _ _ _ hx

end Yields

end SeriesFormula.Json.Reader
