import SeriesFormula.Formula.Function

/-!
# How calls end

The kinds that a function takes (`Implementation.parameters`) and the kind that it gives
(`Implementation.resultKind`) decide how a call of it ends (`FunctionSpec.ends_call`): arguments of the kinds asked for
give a value of the function's kind, unless the number of periods is not one; all others are refused.
-/

namespace SeriesFormula

variable {α : Type}

/-- The kinds of the arguments. -/
def Implementation.parameters : Implementation α → List ValueKind
  | aggregate _ | transform _ => [.series]
  | indicator _ => [.series, .scalar]
  | pairwise _ => [.series, .series]

/-- The kind of the value. -/
def Implementation.resultKind : Implementation α → ValueKind
  | aggregate _ | pairwise _ => .scalar
  | indicator _ | transform _ => .series

/-- A function takes as many arguments as its arity says. -/
theorem Implementation.length_parameters (f : Implementation α) : f.parameters.length = f.arity := by cases f <;> rfl

/-- The arguments are too few, too many or of other kinds. -/
def FormulaError.IsMisuse : FormulaError α → Prop
  | wrongArity .. | wrongArgumentKind .. => True
  | _ => False

namespace FunctionSpec

variable (spec : FunctionSpec α)

/-- The ends of a call with a value of the kind `kind`; `fits` says that the arguments are of the kinds asked for. -/
inductive Ends (fits : Prop) (kind : ValueKind) : Except (FormulaError α) (Value α) → Prop
  | value {v : Value α} : fits → v.kind = kind → Ends fits kind (.ok v)
  | periods (x : α) : fits → Ends fits kind (.error (.invalidPeriods spec.name x))
  | misuse {error : FormulaError α} : ¬fits → error.IsMisuse → Ends fits kind (.error error)

variable {spec} {fits fits' : Prop} {kind : ValueKind}

theorem Ends.congr {result : Except (FormulaError α) (Value α)} (h : spec.Ends fits kind result)
    (hiff : fits ↔ fits') : spec.Ends fits' kind result := by
  cases h with
  | value hf hk => exact .value (hiff.1 hf) hk
  | periods x hf => exact .periods x (hiff.1 hf)
  | misuse hf he => exact .misuse (fun h => hf (hiff.2 h)) he

/-- Nothing more is asked for. -/
theorem ends_ok {v : Value α} (h : v.kind = kind) : spec.Ends True kind (.ok v) := .value trivial h

/-- A series is asked for first. -/
theorem ends_seriesArgument {position : Nat} {v : Value α} {k : Series α → Except (FormulaError α) (Value α)}
    (h : ∀ s, spec.Ends fits kind (k s)) :
    spec.Ends (v.kind = .series ∧ fits) kind (spec.seriesArgument position v >>= k) := by
  cases v with
  | scalar x => exact .misuse (fun hf => by cases hf.1) trivial
  | series s => exact (h s).congr (by simp [Value.kind])

variable [Number α]

/-- A number of periods is asked for last. -/
theorem ends_periodsArgument {position : Nat} {v : Value α} {k : Nat → Value α} (h : ∀ p, (k p).kind = kind) :
    spec.Ends (v.kind = .scalar) kind (spec.periodsArgument position v >>= fun p => .ok (k p)) := by
  cases v with
  | scalar x =>
    unfold periodsArgument
    dsimp only
    cases periods? x with
    | none => exact .periods x rfl
    | some p => exact .value rfl (h p)
  | series s => exact .misuse (fun hf => by cases hf) trivial

/-- Too few or too many arguments are refused for their number. -/
theorem call_of_length_ne {args : List (Value α)} (h : args.length ≠ spec.arity) :
    spec.call args = .error (.wrongArity spec.name spec.arity args.length) := by
  unfold call
  split
  case h_5 => rfl
  all_goals
    rename_i hspec
    exact absurd (by rw [arity, hspec]; rfl) h

/-- An indicator of a series and a number gives a series, or the number is none of periods. -/
theorem call_indicator (name summary : String) (f : Series α → Nat → Series α) (s : Series α) (x : α) :
    call ⟨name, summary, .indicator f⟩ [.series s, .scalar x] =
      match periods? x with
      | some p => .ok (.series (f s p))
      | none => .error (.invalidPeriods name x) := by
  unfold call
  dsimp only [seriesArgument, periodsArgument, bind, Except.bind]
  cases periods? x <;> rfl

/-- **How a call ends**: arguments of the function's kinds give a value of its kind, or the number of periods is not
one; other arguments are refused. -/
theorem ends_call (spec : FunctionSpec α) (args : List (Value α)) :
    spec.Ends (args.map Value.kind = spec.implementation.parameters) spec.implementation.resultKind
      (spec.call args) := by
  by_cases hlen : args.length = spec.arity
  · -- as many arguments as the function takes are read one by one
    obtain ⟨name, summary, implementation⟩ := spec
    cases implementation with
    | aggregate f =>
      obtain ⟨v, rfl⟩ := List.length_eq_one_iff.1 hlen
      refine Ends.congr (ends_seriesArgument fun s => ends_ok rfl) ?_
      simp [Implementation.parameters]
    | indicator f =>
      match args, hlen with
      | [v, w], _ =>
        refine Ends.congr (ends_seriesArgument fun s => ends_periodsArgument fun p => rfl) ?_
        simp [Implementation.parameters]
    | pairwise f =>
      match args, hlen with
      | [v, w], _ =>
        refine Ends.congr (ends_seriesArgument fun s => ends_seriesArgument fun t => ends_ok rfl) ?_
        simp [Implementation.parameters]
    | transform f =>
      obtain ⟨v, rfl⟩ := List.length_eq_one_iff.1 hlen
      refine Ends.congr (ends_seriesArgument fun s => ends_ok rfl) ?_
      simp [Implementation.parameters]
  · rw [call_of_length_ne hlen]
    refine .misuse (fun hkinds => hlen ?_) trivial
    rw [arity, ← Implementation.length_parameters, ← hkinds, List.length_map]

end FunctionSpec

end SeriesFormula
