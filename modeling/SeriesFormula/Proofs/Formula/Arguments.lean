import SeriesFormula.Proofs.Decimal.Whole
import SeriesFormula.Proofs.Formula.Call

/-!
# How arguments are checked

The checks of a call run in a fixed order: the number of the arguments, the kind of each from left to right, and then
the number of periods. `FunctionSpec.Answers` says what each of them answers, and a call gives nothing else.

A call is also made by reading its arguments at positions, where each access may fail, and by taking the number of
periods out of a float with the tests and conversions of floats (`FunctionSpec.callByPosition?`). No access fails and
the result is the same (`FunctionSpec.call_eq_iff_answers`).
-/

namespace SeriesFormula

open Decimal

/-! ## Numbers of periods -/

/-- A float stands for a number of periods. -/
def IsPeriods (x : Float) (p : ℕ) : Prop := value? x = some (p : ℚ) ∧ 1 ≤ p ∧ p ≤ 4294967295

theorem periods?_eq_some_iff {x : Float} {p : ℕ} : periods? x = some p ↔ IsPeriods x p := by
  unfold periods? IsPeriods
  rw [Option.filter_eq_some_iff, ← natural?_eq_some_iff_value?, Bool.and_eq_true, decide_eq_true_eq, decide_eq_true_eq]
  rfl

/-- The number of periods that is taken out of a float: it is finite, has nothing behind the point and is not above the
largest word of 32 bits, and is not zero when it is taken as a word, which a negative one is. -/
def wordPeriods? (x : Float) : Option ℕ :=
  if x.isFinite && fract x == 0.0 && x ≤ UInt32.toFloat 4294967295 then
    some (Number.greater x 0.0).toUInt64.toNat |>.filter (· ≠ 0)
  else none

theorem value?_largest : value? (UInt32.toFloat 4294967295) = some (4294967295 : ℕ) :=
  natural?_eq_some_iff_value?.1 (by decide +kernel)

/-- The word of a whole number, and zero below zero. -/
theorem toNat_greater_zero {x : Float} {n : ℤ} (h : value? x = some (n : ℚ)) (hn : n < 2 ^ 64) :
    (Number.greater x 0.0).toUInt64.toNat = n.toNat := by
  have hzero : (0.0 : Float).toUInt64.toNat = 0 := toNat_toUInt64 (by exact_mod_cast value?_zero) (by norm_num)
  obtain ⟨-, a, ha, -⟩ := exists_rank?_of_value? h
  have hnan : ¬x.isNaN := by rw [isNaN_iff_rank?, ha]; exact nofun
  change (if x.isNaN then 0.0 else if (0.0 : Float).isNaN then x else if x < 0.0 then 0.0 else x).toUInt64.toNat = _
  rw [if_neg hnan, if_neg (by decide +kernel)]
  by_cases hneg : n < 0
  · rw [if_pos ((lt_iff_value? h value?_zero).2 (by exact_mod_cast hneg)), hzero, Int.toNat_of_nonpos hneg.le]
  · rw [if_neg (mt (lt_iff_value? h value?_zero).1 (by exact_mod_cast hneg))]
    obtain ⟨k, rfl⟩ := Int.eq_ofNat_of_zero_le (Int.not_lt.1 hneg)
    exact toNat_toUInt64 (by exact_mod_cast h) (by omega)

/-- **The tests and conversions of floats find the number of periods.** -/
theorem wordPeriods?_eq (x : Float) : wordPeriods? x = periods? x := by
  refine Option.ext fun p => ?_
  rw [periods?_eq_some_iff, IsPeriods, wordPeriods?, isFinite_eq]
  cases hv : value? x with
  | none =>
    have hx : isFinite x = false := Bool.eq_false_iff.2 fun hx => by
      rw [value?, if_pos hx] at hv
      cases hv
    rw [hx, Bool.false_and, Bool.false_and, if_neg Bool.false_ne_true]
    refine iff_of_false (fun h => by cases h) ?_
    rintro ⟨hp, -⟩
    cases hp
  | some q =>
    rw [(exists_rank?_of_value? hv).1, Bool.true_and]
    split
    · rename_i h
      rw [Bool.and_eq_true, decide_eq_true_eq, fract_beq_zero_iff hv, le_iff_value? hv value?_largest] at h
      obtain ⟨⟨n, rfl⟩, hle⟩ := h
      have hn : n ≤ 4294967295 := by exact_mod_cast hle
      have hcast : (n : ℚ) = p ↔ n = p := by exact_mod_cast Iff.rfl
      rw [toNat_greater_zero hv (by omega), Option.filter_eq_some_iff, Option.some_inj, Option.some_inj, hcast,
        decide_eq_true_eq]
      omega
    · rename_i h
      refine iff_of_false (fun hnone => by cases hnone) ?_
      rintro ⟨hp, -, hle⟩
      obtain rfl := Option.some.inj hp
      refine h ?_
      rw [Bool.and_eq_true, decide_eq_true_eq, fract_beq_zero_iff hv, le_iff_value? hv value?_largest]
      exact ⟨⟨p, (Int.cast_natCast p).symm⟩, by exact_mod_cast hle⟩

/-! ## Calls -/

namespace FunctionSpec

variable (spec : FunctionSpec Float)

/-- What the checks of a call answer. -/
inductive Answers : List (Value Float) → Except (FormulaError Float) (Value Float) → Prop
  /-- The number of the arguments is checked first. -/
  | arity {args : List (Value Float)} : args.length ≠ spec.arity →
      Answers args (.error (.wrongArity spec.name spec.arity args.length))
  /-- Then the first argument of another kind is reported; its position counts from one. -/
  | kind {args : List (Value Float)} {i : ℕ} {v : Value Float} {expected : ValueKind} : args.length = spec.arity →
      args[i]? = some v → spec.implementation.parameters[i]? = some expected → v.kind ≠ expected →
      (∀ j < i, args[j]?.map Value.kind = spec.implementation.parameters[j]?) →
      Answers args (.error (.wrongArgumentKind spec.name (i + 1) expected v.kind))
  /-- Then the number of periods is checked. -/
  | periods {f : Series Float → ℕ → Series Float} {s : Series Float} {x : Float} :
      spec.implementation = .indicator f → (∀ p, ¬IsPeriods x p) →
      Answers [.series s, .scalar x] (.error (.invalidPeriods spec.name x))
  | indicator {f : Series Float → ℕ → Series Float} {s : Series Float} {x : Float} {p : ℕ} :
      spec.implementation = .indicator f → IsPeriods x p → Answers [.series s, .scalar x] (.ok (.series (f s p)))
  | aggregate {f : Series Float → Float} {s : Series Float} :
      spec.implementation = .aggregate f → Answers [.series s] (.ok (.scalar (f s)))
  | pairwise {f : Series Float → Series Float → Float} {s t : Series Float} :
      spec.implementation = .pairwise f → Answers [.series s, .series t] (.ok (.scalar (f s t)))
  | transform {f : Series Float → Series Float} {s : Series Float} :
      spec.implementation = .transform f → Answers [.series s] (.ok (.series (f s)))

/-- The number of periods that an argument is, by the tests and conversions of floats. -/
def wordPeriodsArgument (position : ℕ) : Value Float → Except (FormulaError Float) ℕ
  | .scalar x => (wordPeriods? x).elim (.error (.invalidPeriods spec.name x)) .ok
  | v => .error (.wrongArgumentKind spec.name position .scalar v.kind)

section

variable (args : List (Value Float)) (position : ℕ)

/-- The series at a position counted from zero; reading beyond the last argument fails. -/
def seriesAt? : ExceptT (FormulaError Float) Option (Series Float) :=
  .mk (args[position]?.map (spec.seriesArgument (position + 1)))

def periodsAt? : ExceptT (FormulaError Float) Option ℕ :=
  .mk (args[position]?.map (spec.wordPeriodsArgument (position + 1)))

/-- A call that reads its arguments at positions. -/
def callByPosition? : ExceptT (FormulaError Float) Option (Value Float) :=
  if args.length ≠ spec.arity then throw (.wrongArity spec.name spec.arity args.length)
  else match spec.implementation with
    | .aggregate f => do
      let s ← spec.seriesAt? args 0
      return .scalar (f s)
    | .indicator f => do
      let s ← spec.seriesAt? args 0
      let p ← spec.periodsAt? args 1
      return .series (f s p)
    | .pairwise f => do
      let left ← spec.seriesAt? args 0
      let right ← spec.seriesAt? args 1
      return .scalar (f left right)
    | .transform f => do
      let s ← spec.seriesAt? args 0
      return .series (f s)

end

/-- No access to an argument fails. -/
theorem run_callByPosition? (args : List (Value Float)) :
    (spec.callByPosition? args).run = some (spec.call args) := by
  by_cases hlen : args.length = spec.arity
  · rw [callByPosition?, if_neg (not_not_intro hlen)]
    obtain ⟨name, summary, implementation⟩ := spec
    cases implementation with
    | aggregate f =>
      obtain ⟨v, rfl⟩ := List.length_eq_one_iff.1 hlen
      cases v <;> rfl
    | indicator f =>
      obtain ⟨v, w, rfl⟩ := List.length_eq_two.1 hlen
      cases v with
      | scalar x => rfl
      | series s =>
        cases w with
        | series t => rfl
        | scalar x =>
          rw [call_indicator, ← wordPeriods?_eq]
          change ((ExceptT.mk (some ((wordPeriods? x).elim (.error (.invalidPeriods name x)) .ok)) :
            ExceptT (FormulaError Float) Option ℕ) >>= fun p => pure (Value.series (f s p))).run = _
          cases wordPeriods? x <;> rfl
    | pairwise f =>
      obtain ⟨v, w, rfl⟩ := List.length_eq_two.1 hlen
      cases v <;> cases w <;> rfl
    | transform f =>
      obtain ⟨v, rfl⟩ := List.length_eq_one_iff.1 hlen
      cases v <;> rfl
  · rw [callByPosition?, if_pos hlen, call_of_length_ne hlen]
    rfl

variable {spec}

/-- The argument of a single parameter. -/
theorem eq_of_getElem?_singleton {w v : Value Float} {k expected : ValueKind} {i : ℕ} (hv : [w][i]? = some v)
    (hexpected : [k][i]? = some expected) : i = 0 ∧ w = v ∧ k = expected := by
  cases i with
  | zero => exact ⟨rfl, Option.some.inj hv, Option.some.inj hexpected⟩
  | succ i => cases hv

/-- The first argument, or the second one behind a first of the kind asked for. -/
theorem eq_of_getElem?_pair {w z v : Value Float} {k k' expected : ValueKind} {i : ℕ} (hv : [w, z][i]? = some v)
    (hexpected : [k, k'][i]? = some expected) (hearlier : ∀ j < i, [w, z][j]?.map Value.kind = [k, k'][j]?) :
    i = 0 ∧ w = v ∧ k = expected ∨ i = 1 ∧ z = v ∧ k' = expected ∧ w.kind = k := by
  cases i with
  | zero => exact .inl ⟨rfl, Option.some.inj hv, Option.some.inj hexpected⟩
  | succ i =>
    have hfirst := Option.some.inj (hearlier 0 i.succ_pos)
    cases i with
    | zero => exact .inr ⟨rfl, Option.some.inj hv, Option.some.inj hexpected, hfirst⟩
    | succ i => cases hv

section Kinds

variable {args : List (Value Float)} {i : ℕ} {v : Value Float} {expected : ValueKind}

/-- The first argument of another kind is reported. -/
theorem call_of_kind_ne (hlen : args.length = spec.arity) (hv : args[i]? = some v)
    (hexpected : spec.implementation.parameters[i]? = some expected) (hne : v.kind ≠ expected)
    (hearlier : ∀ j < i, args[j]?.map Value.kind = spec.implementation.parameters[j]?) :
    spec.call args = .error (.wrongArgumentKind spec.name (i + 1) expected v.kind) := by
  obtain ⟨name, summary, implementation⟩ := spec
  cases implementation with
  | aggregate f | transform f =>
    obtain ⟨w, rfl⟩ := List.length_eq_one_iff.1 hlen
    obtain ⟨rfl, rfl, rfl⟩ := eq_of_getElem?_singleton hv hexpected
    cases w with
    | scalar x => rfl
    | series s => exact absurd rfl hne
  | indicator f =>
    obtain ⟨w, z, rfl⟩ := List.length_eq_two.1 hlen
    obtain ⟨rfl, rfl, rfl⟩ | ⟨rfl, rfl, rfl, hw⟩ := eq_of_getElem?_pair hv hexpected hearlier
    · cases w with
      | scalar x => rfl
      | series s => exact absurd rfl hne
    · cases w with
      | scalar x => cases hw
      | series s =>
        cases z with
        | scalar x => exact absurd rfl hne
        | series t => rfl
  | pairwise f =>
    obtain ⟨w, z, rfl⟩ := List.length_eq_two.1 hlen
    obtain ⟨rfl, rfl, rfl⟩ | ⟨rfl, rfl, rfl, hw⟩ := eq_of_getElem?_pair hv hexpected hearlier
    · cases w with
      | scalar x => rfl
      | series s => exact absurd rfl hne
    · cases w with
      | scalar x => cases hw
      | series s =>
        cases z with
        | scalar x => rfl
        | series t => exact absurd rfl hne

/-- No function takes a scalar first. -/
theorem answers_scalar {x : Float} (hlen : (.scalar x :: args).length = spec.arity) :
    spec.Answers (.scalar x :: args) (.error (.wrongArgumentKind spec.name 1 .series .scalar)) := by
  have hseries : spec.implementation.parameters[0]? = some .series := by cases spec.implementation <;> rfl
  exact .kind hlen rfl hseries nofun nofun

/-- A second argument of another kind behind a series. -/
theorem answers_second {s : Series Float} (hlen : [.series s, v].length = spec.arity)
    (hexpected : spec.implementation.parameters[1]? = some expected) (hne : v.kind ≠ expected) :
    spec.Answers [.series s, v] (.error (.wrongArgumentKind spec.name 2 expected v.kind)) := by
  refine .kind (i := 1) hlen rfl hexpected hne fun j hj => ?_
  obtain rfl : j = 0 := by omega
  cases spec.implementation <;> rfl

end Kinds

/-- A call gives what the checks answer. -/
theorem Answers.call_eq {args : List (Value Float)} {result : Except (FormulaError Float) (Value Float)}
    (h : spec.Answers args result) : spec.call args = result := by
  obtain ⟨name, summary, implementation⟩ := spec
  cases h with
  | arity hlen => exact call_of_length_ne hlen
  | kind hlen hv hexpected hne hearlier => exact call_of_kind_ne hlen hv hexpected hne hearlier
  | @periods f s x hf hx =>
    obtain rfl : implementation = _ := hf
    have hnone : periods? x = none := Option.eq_none_iff_forall_ne_some.2 fun p hp => hx p (periods?_eq_some_iff.1 hp)
    rw [call_indicator, hnone]
  | indicator hf hp =>
    obtain rfl : implementation = _ := hf
    rw [call_indicator, periods?_eq_some_iff.2 hp]
  | aggregate hf | pairwise hf | transform hf =>
    obtain rfl : implementation = _ := hf
    rfl

/-- The checks of a call answer what it gives. -/
theorem answers_call (args : List (Value Float)) : spec.Answers args (spec.call args) := by
  by_cases hlen : args.length = spec.arity
  · obtain ⟨name, summary, implementation⟩ := spec
    cases implementation with
    | aggregate f =>
      obtain ⟨v, rfl⟩ := List.length_eq_one_iff.1 hlen
      cases v with
      | scalar x => exact answers_scalar hlen
      | series s => exact .aggregate rfl
    | indicator f =>
      obtain ⟨v, w, rfl⟩ := List.length_eq_two.1 hlen
      cases v with
      | scalar x => exact answers_scalar hlen
      | series s =>
        cases w with
        | scalar x =>
          rw [call_indicator]
          cases hp : periods? x with
          | none => exact .periods rfl fun p h => by rw [periods?_eq_some_iff.2 h] at hp; cases hp
          | some p => exact .indicator rfl (periods?_eq_some_iff.1 hp)
        | series t => exact answers_second hlen rfl nofun
    | pairwise f =>
      obtain ⟨v, w, rfl⟩ := List.length_eq_two.1 hlen
      cases v with
      | scalar x => exact answers_scalar hlen
      | series s =>
        cases w with
        | scalar x => exact answers_second hlen rfl nofun
        | series t => exact .pairwise rfl
    | transform f =>
      obtain ⟨v, rfl⟩ := List.length_eq_one_iff.1 hlen
      cases v with
      | scalar x => exact answers_scalar hlen
      | series s => exact .transform rfl
  · rw [call_of_length_ne hlen]
    exact .arity hlen

variable (spec) in
/-- **A call checks its arguments in a fixed order**: it reads none that is not there, and its result is the one that
the checks answer. -/
theorem call_eq_iff_answers (args : List (Value Float)) :
    (spec.callByPosition? args).run = some (spec.call args) ∧
      ∀ result, spec.call args = result ↔ spec.Answers args result :=
  ⟨run_callByPosition? spec args, fun _ => ⟨fun h => h ▸ answers_call args, Answers.call_eq⟩⟩

end FunctionSpec

end SeriesFormula
