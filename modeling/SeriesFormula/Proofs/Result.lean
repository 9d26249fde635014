import Mathlib.Data.List.Forall2

/-!
# Results

- steps after each other have a result iff each has one (`bind_eq_ok_iff`, `exists_bind_eq_error_iff`), and renaming
  errors adds none (`mapError_eq_ok_iff`);
- members of a list are taken from left to right up to the first that fails: all results are there iff each is
  (`mapM_eq_ok_iff`, `forM_eq_ok_iff`, `exists_foldlM_eq_ok_iff`), each result is that of a member
  (`exists_of_mapM_eq_ok`), and an error is that of the first member that fails (`mapM_eq_error_iff`,
  `forM_eq_error_iff`);
- two runs that agree in each step unless the first fails in a given way agree as a whole unless it does so
  (`EqUnless`).
-/

namespace SeriesFormula

/-! ## Steps -/

section

variable {ε ε' α β : Type}

theorem bind_eq_ok_iff {x : Except ε α} {f : α → Except ε β} {b : β} :
    (x >>= f) = .ok b ↔ ∃ a, x = .ok a ∧ f a = .ok b := by
  cases x <;> simp [bind, Except.bind]

/-- What has no result fails. -/
theorem exists_eq_error_iff {x : Except ε α} : (∃ error, x = .error error) ↔ ¬∃ a, x = .ok a := by
  cases x <;> simp

theorem map_eq_ok_iff {x : Except ε α} {f : α → β} {b : β} : x.map f = .ok b ↔ ∃ a, x = .ok a ∧ f a = b := by
  cases x <;> simp [Except.map]

theorem map_eq_error_iff {x : Except ε α} {f : α → β} {error : ε} : x.map f = .error error ↔ x = .error error := by
  cases x <;> simp [Except.map]

theorem toOption_eq_some_iff {x : Except ε α} {a : α} : x.toOption = some a ↔ x = .ok a := by
  cases x <;> simp [Except.toOption]

theorem mapError_eq_ok_iff {x : Except ε α} {f : ε → ε'} {a : α} : x.mapError f = .ok a ↔ x = .ok a := by
  cases x <;> simp [Except.mapError]

theorem mapError_map (x : Except ε α) (f : α → β) (g : ε → ε') : (x.map f).mapError g = (x.mapError g).map f := by
  cases x <;> rfl

/-- Steps after each other fail iff one of them does. -/
theorem exists_bind_eq_error_iff {x : Except ε α} {f : α → Except ε β} : (∃ error, (x >>= f) = .error error) ↔
    (∃ error, x = .error error) ∨ ∃ a error, x = .ok a ∧ f a = .error error := by
  cases x <;> simp [bind, Except.bind]

theorem exists_mapError_eq_error_iff {x : Except ε α} {f : ε → ε'} :
    (∃ error, x.mapError f = .error error) ↔ ∃ error, x = .error error := by
  cases x <;> simp [Except.mapError]

end

/-! ## Lists -/

variable {ε α β : Type} {f : α → Except ε β}

/-- All results of a list are there iff each is. -/
theorem mapM_eq_ok_iff {xs : List α} {ys : List β} :
    xs.mapM f = .ok ys ↔ List.Forall₂ (fun x y => f x = .ok y) xs ys := by
  induction xs generalizing ys with
  | nil => simp [pure, Except.pure, eq_comm]
  | cons x xs ih =>
    simp only [List.mapM_cons, List.forall₂_cons_left_iff, ← ih]
    cases f x with
    | error error => simp [bind, Except.bind]
    | ok y => cases xs.mapM f <;> simp [bind, Except.bind, pure, Except.pure, eq_comm]

/-- A list has results iff each member has one. -/
theorem exists_mapM_eq_ok_iff {xs : List α} : (∃ ys, xs.mapM f = .ok ys) ↔ ∀ x ∈ xs, ∃ y, f x = .ok y := by
  simp only [mapM_eq_ok_iff]
  induction xs with
  | nil => exact iff_of_true ⟨[], .nil⟩ (List.forall_mem_nil _)
  | cons x xs ih =>
    rw [List.forall_mem_cons, ← ih]
    constructor
    · rintro ⟨_, hcons⟩
      cases hcons with
      | cons hx hxs => exact ⟨⟨_, hx⟩, _, hxs⟩
    · rintro ⟨⟨y, hx⟩, ys, hxs⟩
      exact ⟨y :: ys, .cons hx hxs⟩

/-- Results of a list depend on its members only. -/
theorem mapM_congr {f g : α → Except ε β} {xs : List α} (h : ∀ x ∈ xs, f x = g x) : xs.mapM f = xs.mapM g := by
  induction xs with
  | nil => rfl
  | cons x xs ih =>
    rw [List.forall_mem_cons] at h
    rw [List.mapM_cons, List.mapM_cons, h.1, ih h.2]

/-- Where a member only passes or not, the list gives all images iff all members pass. -/
theorem mapM_eq_ok_iff_map (g : α → β) (Passes : α → Prop) (h : ∀ x y, f x = .ok y ↔ y = g x ∧ Passes x) {xs : List α}
    {ys : List β} : xs.mapM f = .ok ys ↔ ys = xs.map g ∧ ∀ x ∈ xs, Passes x := by
  induction xs generalizing ys with
  | nil => simp [pure, Except.pure, eq_comm]
  | cons x xs ih =>
    simp only [List.mapM_cons, bind_eq_ok_iff, h, ih, List.forall_mem_cons, List.map_cons, pure, Except.pure,
      Except.ok.injEq]
    constructor
    · rintro ⟨y, ⟨rfl, hx⟩, ys, ⟨rfl, hxs⟩, rfl⟩
      exact ⟨rfl, hx, hxs⟩
    · rintro ⟨rfl, hx, hxs⟩
      exact ⟨g x, ⟨rfl, hx⟩, xs.map g, ⟨rfl, hxs⟩, rfl⟩

/-- Where members that do not pass fail alike, so does the list. -/
theorem mapM_ite (passes : α → Bool) (error : ε) (xs : List α) :
    (xs.mapM fun x => if passes x then Except.ok x else .error error) =
      if xs.all passes then .ok xs else .error error := by
  induction xs with
  | nil => rfl
  | cons x xs ih =>
    rw [List.mapM_cons, ih, List.all_cons]
    cases passes x with
    | false => rfl
    | true => cases xs.all passes <;> rfl

/-- Each result of a list is that of one of its members. -/
theorem exists_of_mapM_eq_ok {xs : List α} {ys : List β} (h : xs.mapM f = .ok ys) {y : β} (hy : y ∈ ys) :
    ∃ x ∈ xs, f x = .ok y := by
  rw [mapM_eq_ok_iff] at h
  obtain ⟨i, hi, rfl⟩ := List.getElem_of_mem hy
  have hx : i < xs.length := by rwa [h.length_eq]
  exact ⟨xs[i], List.getElem_mem hx, h.get hx hi⟩

/-- A list passes iff each of its members does. -/
theorem forM_eq_ok_iff {f : α → Except ε Unit} {xs : List α} : xs.forM f = .ok () ↔ ∀ x ∈ xs, f x = .ok () := by
  induction xs with
  | nil => simp [pure, Except.pure]
  | cons x xs ih =>
    rw [List.forM, List.forall_mem_cons, ← ih]
    cases f x <;> simp [bind, Except.bind]

/-- **A list fails at its first member that fails.** -/
theorem mapM_eq_error_iff {error : ε} {xs : List α} : xs.mapM f = .error error ↔
    ∃ before x after, xs = before ++ x :: after ∧ (∀ b ∈ before, ∃ y, f b = .ok y) ∧ f x = .error error := by
  constructor
  · intro h
    induction xs with
    | nil => cases h
    | cons x xs ih =>
      rw [List.mapM_cons] at h
      cases hx : f x with
      | error error' =>
        rw [hx] at h
        cases h
        exact ⟨[], x, xs, rfl, List.forall_mem_nil _, hx⟩
      | ok y =>
        rw [hx] at h
        cases hxs : xs.mapM f with
        | ok ys =>
          rw [hxs] at h
          cases h
        | error error' =>
          rw [hxs] at h
          cases h
          obtain ⟨before, x', after, rfl, hbefore, hx'⟩ := ih hxs
          exact ⟨x :: before, x', after, rfl, List.forall_mem_cons.2 ⟨⟨y, hx⟩, hbefore⟩, hx'⟩
  · rintro ⟨before, x, after, rfl, hbefore, hx⟩
    induction before with
    | nil =>
      rw [List.nil_append, List.mapM_cons, hx]
      rfl
    | cons b before ih =>
      obtain ⟨⟨y, hb⟩, hbefore⟩ := List.forall_mem_cons.1 hbefore
      rw [List.cons_append, List.mapM_cons, hb, ih hbefore]
      rfl

/-- Members that only pass or not are taken like those with results. -/
theorem forM_eq_map_mapM (f : α → Except ε Unit) (xs : List α) : xs.forM f = (xs.mapM f).map fun _ => () := by
  induction xs with
  | nil => rfl
  | cons x xs ih =>
    rw [List.forM, List.mapM_cons, ih]
    cases f x with
    | error error => rfl
    | ok _ => cases xs.mapM f <;> rfl

/-- A list does not pass at its first member that does not. -/
theorem forM_eq_error_iff {f : α → Except ε Unit} {error : ε} {xs : List α} : xs.forM f = .error error ↔
    ∃ before x after, xs = before ++ x :: after ∧ (∀ b ∈ before, f b = .ok ()) ∧ f x = .error error := by
  have hpass : ∀ before : List α, (∀ b ∈ before, ∃ y, f b = .ok y) ↔ ∀ b ∈ before, f b = .ok () := fun before =>
    forall₂_congr fun b _ => ⟨fun ⟨_, h⟩ => h, fun h => ⟨(), h⟩⟩
  rw [forM_eq_map_mapM, map_eq_error_iff, mapM_eq_error_iff]
  simp only [hpass]

/-- The error of a list is that of one of its members. -/
theorem exists_of_mapM_eq_error {error : ε} {xs : List α} (h : xs.mapM f = .error error) :
    ∃ x ∈ xs, f x = .error error := by
  obtain ⟨before, x, after, rfl, -, hx⟩ := mapM_eq_error_iff.1 h
  exact ⟨x, List.mem_append_right before List.mem_cons_self, hx⟩

/-- Steps that pass by their members alone all pass iff each member lets its step pass. -/
theorem exists_foldlM_eq_ok_iff {step : β → α → Except ε β} {Passes : α → Prop}
    (h : ∀ b x, (∃ b', step b x = .ok b') ↔ Passes x) {xs : List α} {b : β} :
    (∃ b', xs.foldlM step b = .ok b') ↔ ∀ x ∈ xs, Passes x := by
  induction xs generalizing b with
  | nil => simp [pure, Except.pure]
  | cons x xs ih =>
    rw [List.forall_mem_cons, ← h b x]
    simp only [List.foldlM_cons, bind_eq_ok_iff]
    constructor
    · rintro ⟨last, next, hnext, hlast⟩
      exact ⟨⟨next, hnext⟩, ih.1 ⟨last, hlast⟩⟩
    · rintro ⟨⟨next, hnext⟩, hxs⟩
      obtain ⟨last, hlast⟩ := ih.2 hxs
      exact ⟨last, next, hnext, hlast⟩

/-! ## Runs that agree up to one failure -/

/-- The results are the same, unless the first is the failure `error`. -/
def EqUnless (error : ε) (x y : Except ε β) : Prop := x ≠ .error error → x = y

namespace EqUnless

variable {error : ε}

theorem refl (x : Except ε β) : EqUnless error x x := fun _ => rfl

theorem failed (y : Except ε β) : EqUnless error (.error error) y := fun h => absurd rfl h

/-- Steps after each other. -/
theorem bind {x y : Except ε α} {f g : α → Except ε β} (h : EqUnless error x y)
    (hf : ∀ a, EqUnless error (f a) (g a)) : EqUnless error (x >>= f) (y >>= g) := by
  intro hne
  have hx : x ≠ .error error := by
    rintro rfl
    exact hne rfl
  obtain rfl := h hx
  cases x with
  | error _ => rfl
  | ok a => exact hf a hne

theorem map {x y : Except ε α} (f : α → β) (h : EqUnless error x y) : EqUnless error (x.map f) (y.map f) := by
  have hmap : ∀ z : Except ε α, z.map f = z >>= fun a => .ok (f a) := by rintro (_ | _) <;> rfl
  rw [hmap, hmap]
  exact h.bind fun a => refl _

/-- The members of a list. -/
theorem mapM {f g : α → Except ε β} {xs : List α} (h : ∀ x ∈ xs, EqUnless error (f x) (g x)) :
    EqUnless error (xs.mapM f) (xs.mapM g) := by
  induction xs with
  | nil => exact refl _
  | cons x xs ih =>
    rw [List.forall_mem_cons] at h
    rw [List.mapM_cons, List.mapM_cons]
    exact h.1.bind fun y => (ih h.2).bind fun ys => refl _

end EqUnless

end SeriesFormula
