import SeriesFormula.Proofs.Decimal.Plain
import SeriesFormula.Proofs.Formula.Arguments
import SeriesFormula.Proofs.Formula.Builtin
import SeriesFormula.Proofs.Formula.Reading
import SeriesFormula.Proofs.Source.Load

/-!
# Names of results

The name of a series that a function gives is put together from the function's name, the name of its series and the
number of periods, whatever the values are (`FunctionSpec.NamesResults`). The canonical form of a formula is put
together from what has been read. Where each series of the store has its identifier as its name, and numbers of periods
are given as literals, both are the same text in capitals (`Expr.map_toUpper_name`): a number of periods is shown by the
digits of the literal that it was taken from (`Expr.chars_literal_of_isPeriods`), and what is small in the store has
been read in capitals (`Formula.Derives.toUpper_of_mem_identifiers`).
-/

namespace SeriesFormula

/-! ## Names in capitals -/

namespace Formula

theorem toUpper_of_isNameChar {c : Char} (h : isNameChar c) : c.toUpper = c := by
  have hcode := toNat_of_isNameChar h
  refine dif_neg fun hsmall => ?_
  have hl : 97 ≤ c.toNat := hsmall.1
  omega

theorem toUpper_of_isDigit {c : Char} (h : Decimal.isDigit c) : c.toUpper = c := by
  simp only [Decimal.isDigit, Bool.and_eq_true, decide_eq_true_eq] at h
  have hcode : c.toNat ≤ 57 := h.2
  refine dif_neg fun hsmall => ?_
  have hl : 97 ≤ c.toNat := hsmall.1
  omega

open SeriesFormula.Expr

mutual

/-- Identifiers are read in capitals. -/
theorem Derives.toUpper_of_mem_identifiers : ∀ {cs : List Char} {e : Expr Float}, Derives cs e →
    ∀ name ∈ e.identifiers, ∀ c ∈ name.toList, c.toUpper = c
  | _, _, .call _ _ hargs => by
    rw [identifiers]
    exact hargs.toUpper_of_mem_identifiers
  | _, _, .identifier hc hcs => by
    rw [identifiers, List.forall_mem_singleton, String.toList_ofList]
    intro d hd
    exact (isNameChar_or_isDigit hc hcs d hd).elim toUpper_of_isNameChar toUpper_of_isDigit
  | _, _, .number _ _ => by
    rw [identifiers]
    exact List.forall_mem_nil _

theorem DerivesArguments.toUpper_of_mem_identifiers : ∀ {cs : List Char} {es : List (Expr Float)},
    DerivesArguments cs es → ∀ name ∈ identifiersOfList es, ∀ c ∈ name.toList, c.toUpper = c
  | _, _, .none => by
    rw [identifiersOfList]
    exact List.forall_mem_nil _
  | _, _, .last he => by
    rw [identifiersOfList, identifiersOfList, List.append_nil]
    exact he.toUpper_of_mem_identifiers
  | _, _, .more he hes => by
    rw [identifiersOfList, List.forall_mem_append]
    exact ⟨he.toUpper_of_mem_identifiers, hes.toUpper_of_mem_identifiers⟩

end

end Formula

/-! ## Names of functions' results -/

/-- A name with a text in parentheses behind it. -/
def called (name : String) (inner : List Char) : List Char := name.toList ++ '(' :: (inner ++ [')'])

theorem map_toUpper_called {name : String} (h : name.toList.map Char.toUpper = name.toList) (inner : List Char) :
    (called name inner).map Char.toUpper = called name (inner.map Char.toUpper) := by
  rw [called, List.map_append, h, List.map_cons, List.map_append]
  rfl

theorem map_toUpper_naturalDigits (n : ℕ) : (Decimal.naturalDigits n).map Char.toUpper = Decimal.naturalDigits n :=
  (List.map_congr_left fun _ h => Formula.toUpper_of_isDigit (Decimal.isDigit_of_mem_naturalDigits h)).trans
    (List.map_id _)

/-- A series that is given under the name of a function has the call that makes it as its name. -/
def Implementation.NamesResults (name : String) : Implementation Float → Prop
  | aggregate _ | pairwise _ => True
  | indicator f => ∀ s p, (f s p).name.toList = called name (s.name.toList ++ ',' :: Decimal.naturalDigits p)
  | transform f => ∀ s, (f s).name.toList = called name s.name.toList

/-- The function has a name in capitals, and names what it gives by it. -/
structure FunctionSpec.NamesResults (spec : FunctionSpec Float) : Prop where
  capitals : spec.name.toList.map Char.toUpper = spec.name.toList
  results : spec.implementation.NamesResults spec.name

theorem toList_derivedName (function : String) (s : Series Float) (p : ℕ) :
    (Statistics.derivedName function s p).toList = called function (s.name.toList ++ ',' :: Decimal.naturalDigits p) := by
  change (function ++ "(" ++ s.name ++ "," ++ p.repr ++ ")").toList = _
  simp [String.toList_append, Nat.toList_repr, Decimal.naturalDigits, called]

theorem toList_name_regression (s : Series Float) :
    (Statistics.regression s).name.toList = called "REGRESSION" s.name.toList := by
  change ("REGRESSION(" ++ s.name ++ ")").toList = _
  simp [String.toList_append, called]

/-- The built-in functions name their results. -/
theorem namesResults_of_mem_builtinFunctions : ∀ spec ∈ builtinFunctions (α := Float), spec.NamesResults := by
  simp only [builtinFunctions, List.forall_mem_cons]
  refine ⟨?sum, ?mean, ?least, ?greatest, ?count, ?roc, ?ma, ?rsi, ?momentum, ?correlation, ?regression,
    List.forall_mem_nil _⟩
  case sum => exact ⟨by decide, trivial⟩
  case mean => exact ⟨by decide, trivial⟩
  case least => exact ⟨by decide, trivial⟩
  case greatest => exact ⟨by decide, trivial⟩
  case count => exact ⟨by decide, trivial⟩
  case roc => exact ⟨by decide, toList_derivedName _⟩
  case ma => exact ⟨by decide, toList_derivedName _⟩
  case rsi => exact ⟨by decide, toList_derivedName _⟩
  case momentum => exact ⟨by decide, toList_derivedName _⟩
  case correlation => exact ⟨by decide, trivial⟩
  case regression => exact ⟨by decide, toList_name_regression⟩

/-- How a series from a call is named. -/
theorem FunctionSpec.NamesResults.toList_name {spec : FunctionSpec Float} (hnames : spec.NamesResults)
    {values : List (Value Float)} {r : Series Float} (h : spec.call values = .ok (.series r)) :
    ∃ s, values = [.series s] ∧ r.name.toList = called spec.name s.name.toList ∨
      ∃ x p, values = [.series s, .scalar x] ∧ IsPeriods x p ∧ spec.implementation.parameters = [.series, .scalar] ∧
        r.name.toList = called spec.name (s.name.toList ++ ',' :: Decimal.naturalDigits p) := by
  have hresults := hnames.results
  have hanswers := spec.answers_call values
  rw [h] at hanswers
  cases hanswers with
  | transform hf =>
    rw [hf] at hresults
    exact ⟨_, .inl ⟨rfl, hresults _⟩⟩
  | indicator hf hp =>
    rw [hf] at hresults ⊢
    exact ⟨_, .inr ⟨_, _, rfl, hp, rfl, hresults _ _⟩⟩

/-! ## Names of results -/

/-- Each series of the store has its identifier, in small letters, as its name. -/
def Store.NamesSeries (store : Store Float) : Prop := ∀ id s, store id = some s → s.name = Text.lower id

/-- What is loaded is named by its identifiers. -/
theorem Sources.namesSeries_of_load {sources : Sources} {files : Files} {context : Context Float}
    (h : sources.load files = .ok context) : context.store.NamesSeries := by
  intro id s hs
  obtain ⟨hlower, hname, -⟩ := of_get?_load h hs
  exact hname.trans hlower.symm

namespace Expr

variable {α : Type}

def isLiteral : Expr α → Bool
  | literal _ => true
  | _ => false

theorem exists_of_isLiteral {e : Expr α} (h : e.isLiteral) : ∃ x, e = literal x := by
  cases e with
  | literal x => exact ⟨x, rfl⟩
  | call name args => cases h
  | identifier name => cases h

mutual

/-- Where a function takes a number, as it does for periods, the argument is a literal. -/
def periodsAreLiterals (registry : Registry α) : Expr α → Bool
  | call name args =>
    periodsAreLiteralsOfList registry args &&
      match registry.get? name with
      | none => true
      | some spec => (spec.implementation.parameters.zip args).all fun (kind, arg) => kind != .scalar || arg.isLiteral
  | identifier _ => true
  | literal _ => true

def periodsAreLiteralsOfList (registry : Registry α) : List (Expr α) → Bool
  | [] => true
  | e :: es => e.periodsAreLiterals registry && periodsAreLiteralsOfList registry es

end

/-- The second argument of a function that takes a number there is a literal. -/
theorem exists_literal_of_periodsAreLiterals {registry : Registry α} {name : String} {e a : Expr α}
    {spec : FunctionSpec α} (hspec : registry.get? name = some spec)
    (hparameters : spec.implementation.parameters = [.series, .scalar])
    (h : (call name [e, a]).periodsAreLiterals registry) : ∃ x, a = literal x := by
  simp only [periodsAreLiterals, hspec, hparameters] at h
  have hall := (Bool.and_eq_true_iff.1 h).2
  refine exists_of_isLiteral ?_
  simpa using hall

/-- A number of periods is shown by its digits. -/
theorem chars_literal_of_isPeriods {x : Float} {p : ℕ} (h : IsPeriods x p) :
    (literal x).chars = Decimal.naturalDigits p := by
  obtain ⟨hvalue, hpos, hle⟩ := h
  rw [chars]
  change (Decimal.plain.text x).toList = _
  rw [Decimal.Layout.text, String.toList_ofList]
  exact Decimal.chars_of_natural (Decimal.natural?_eq_some_iff_value?.2 hvalue) hpos (by omega)

theorem chars_call [Number α] (name : String) (args : List (Expr α)) :
    (call name args).chars = called name (charsOfList args) := by
  rw [chars, called, List.append_assoc, List.cons_append]

variable {env : Environment Float}

/-- How a call gives a series: from the series of its first argument, which gives it its name, and for an indicator from
the literal behind it. -/
theorem exists_named_of_call (hregistry : env.registry = .builtin) {depth : ℕ} {name : String}
    {args : List (Expr Float)} {r : Series Float} (hperiods : (call name args).periodsAreLiterals .builtin)
    (h : ((call name args).evaluateAt env depth).result = .ok (.series r)) :
    name.toList.map Char.toUpper = name.toList ∧
      ∃ e es s, args = e :: es ∧ (e.evaluateAt env (depth + 1)).result = .ok (.series s) ∧
        (es = [] ∧ r.name.toList = called name s.name.toList ∨
          ∃ x p, es = [literal x] ∧ IsPeriods x p ∧
            r.name.toList = called name (s.name.toList ++ ',' :: Decimal.naturalDigits p)) := by
  obtain ⟨spec, values, hspec, hargs, hcall⟩ := exists_of_evaluateAt_call h
  rw [hregistry] at hspec
  obtain ⟨hmem, rfl⟩ := Registry.of_get?_ofList hspec
  have hnames := namesResults_of_mem_builtinFunctions spec hmem
  refine ⟨hnames.capitals, ?_⟩
  obtain ⟨s, ⟨rfl, hname⟩ | ⟨x, p, rfl, hp, hparameters, hname⟩⟩ := hnames.toList_name hcall
  · obtain ⟨e, es, he, hes, rfl⟩ := List.forall₂_cons_right_iff.1 hargs
    obtain rfl := List.forall₂_nil_right_iff.1 hes
    exact ⟨e, [], s, rfl, he, .inl ⟨rfl, hname⟩⟩
  · obtain ⟨e, es, he, hes, rfl⟩ := List.forall₂_cons_right_iff.1 hargs
    obtain ⟨a, rest, ha, hrest, rfl⟩ := List.forall₂_cons_right_iff.1 hes
    obtain rfl := List.forall₂_nil_right_iff.1 hrest
    obtain ⟨y, rfl⟩ := exists_literal_of_periodsAreLiterals hspec hparameters hperiods
    rw [evaluateAt] at ha
    cases ha
    exact ⟨e, [literal x], s, rfl, he, .inr ⟨x, p, rfl, hp, hname⟩⟩

/-- **The name of a result is the canonical form, when written in capitals.** By induction on the first arguments: each
call puts the same signs around the name of its first argument as around the text of it. -/
theorem map_toUpper_name (hregistry : env.registry = .builtin) (hstore : env.store.NamesSeries) :
    ∀ {e : Expr Float} {depth : ℕ} {r : Series Float}, (∀ name ∈ e.identifiers, ∀ c ∈ name.toList, c.toUpper = c) →
      e.periodsAreLiterals .builtin → (e.evaluateAt env depth).result = .ok (.series r) →
      r.name.toList.map Char.toUpper = e.chars
  | .literal value, depth, r, _, _, h => by
    rw [evaluateAt] at h
    cases h
  | .identifier name, depth, r, hcapitals, _, h => by
    rw [evaluateAt] at h
    cases hs : env.store (Text.lower name) with
    | none =>
      rw [hs] at h
      cases h
    | some s =>
      rw [hs] at h
      cases h
      rw [identifiers, List.forall_mem_singleton] at hcapitals
      rw [hstore _ _ hs, Text.lower_lower, ← Text.toList_upper, Text.upper_lower hcapitals, chars]
  | .call name args, depth, r, hcapitals, hperiods, h => by
    obtain ⟨hfixed, e, es, s, rfl, he, hes⟩ := exists_named_of_call hregistry hperiods h
    rw [identifiers, identifiersOfList, List.forall_mem_append] at hcapitals
    rw [periodsAreLiterals, periodsAreLiteralsOfList, Bool.and_eq_true, Bool.and_eq_true] at hperiods
    have ih := map_toUpper_name hregistry hstore hcapitals.1 hperiods.1.1 he
    obtain ⟨rfl, hname⟩ | ⟨x, p, rfl, hp, hname⟩ := hes
    · rw [hname, map_toUpper_called hfixed, ih, chars_call, charsOfList]
    · have hinner : charsOfList [e, literal x] = e.chars ++ ',' :: Decimal.naturalDigits p := by
        rw [charsOfList, charsOfList, chars_literal_of_isPeriods hp]
        exact List.cons_ne_nil _ _
      rw [hname, map_toUpper_called hfixed, List.map_append, List.map_cons, ih, map_toUpper_naturalDigits, chars_call,
        hinner]
      rfl

/-- **A series that is computed is named after its formula.** In capitals its name is the canonical form of the formula
that has been read, whatever its values are and also if it has none; the numbers of periods have to be literals, and
the series of the store have their identifiers as names, which those of a loaded context have. -/
theorem upper_name_eq_text :
    (∀ (sources : Sources) (files : Files) (context : Context Float), sources.load files = .ok context →
      context.store.NamesSeries) ∧
    ∀ (policy : Policy) (formula : String) (e : Expr Float) (env : Environment Float) (r : Series Float),
      Formula.parse policy formula = .ok e → e.periodsAreLiterals .builtin → env.registry = .builtin →
      env.store.NamesSeries → (e.evaluate env).result = .ok (.series r) → Text.upper r.name = e.text := by
  refine ⟨fun _ _ _ => Sources.namesSeries_of_load, fun policy formula e env r hparse hperiods hregistry hstore h => ?_⟩
  obtain ⟨-, hderives, -⟩ := Formula.parse_eq_ok_iff.1 hparse
  have hname := map_toUpper_name hregistry hstore hderives.toUpper_of_mem_identifiers hperiods h
  rw [← String.toList_inj, Text.toList_upper, hname, text, String.toList_ofList]

/-- A formula with other spellings of its numbers, over a series that is too short for it. -/
theorem upper_name_eq_text_short :
    let s : Series Float := ⟨"gdp", [⟨"2020-01-01", some 1⟩, ⟨"2020-02-01", none⟩, ⟨"2020-03-01", some 3⟩]⟩
    let env : Environment Float := ⟨fun id => if id = "gdp" then some s else none, .builtin, .standard⟩
    let e : Expr Float := .call "REGRESSION" [.call "MOMENTUM" [.call "MA" [.identifier "GDP", .literal 2], .literal 10]]
    let r : Series Float := ⟨"REGRESSION(MOMENTUM(MA(gdp,2),10))", []⟩
    Formula.parse .standard "REGRESSION( MOMENTUM(MA(GDP, 02.0), 1e1) )" = .ok e ∧ e.periodsAreLiterals .builtin ∧
      env.registry = .builtin ∧ env.store.NamesSeries ∧ (e.evaluate env).result = .ok (.series r) ∧
      Text.upper r.name = e.text := by
  intro s env e r
  have hparse : Formula.parse .standard "REGRESSION( MOMENTUM(MA(GDP, 02.0), 1e1) )" = .ok e := by
    with_unfolding_all rfl
  have hperiods : e.periodsAreLiterals .builtin := by decide +kernel
  have hstore : env.store.NamesSeries := by
    intro id t ht
    obtain ⟨rfl, hst⟩ := Option.ite_none_right_eq_some.1 ht
    cases hst
    decide +kernel
  have hresult : (e.evaluate env).result = .ok (.series r) := by decide +kernel
  exact ⟨hparse, hperiods, rfl, hstore, hresult, upper_name_eq_text.2 _ _ e env r hparse hperiods rfl hstore hresult⟩

end Expr

end SeriesFormula
