import SeriesFormula.Proofs.Decimal.Plain
import SeriesFormula.Proofs.Formula.Arguments
import SeriesFormula.Proofs.Formula.CallTree
import SeriesFormula.Proofs.Formula.Counting
import SeriesFormula.Proofs.Formula.Reading
import SeriesFormula.Proofs.Formula.Registry
import SeriesFormula.Proofs.Formula.SavedLedger

/-!
# Printed ledgers

A line of a printed ledger says all that its record says, if the record's function has a name of capitals and its
message stands on one line (`CallRecord.IsPrintable`): the parts of the line end at characters that they do not hold
(`CallRecord.line_injective`), so that a ledger of such records can be read back line by line
(`Ledger.eq_of_text_eq`).

The records of a formula that is run are of that kind, since its functions have been read as names, and messages hold
nothing but names and numbers (`Run.isPrintable`). So what is printed tells the whole ledger, and of formulas with a
value also the trees of their calls (`Ledger.text_faithful`).
-/

namespace SeriesFormula

/-! ## Lines -/

/-- The text stands on one line. -/
def IsLine (s : String) : Prop := '\n' ∉ s.toList

instance : DecidablePred IsLine := fun s => inferInstanceAs (Decidable ('\n' ∉ s.toList))

theorem IsLine.append {s t : String} (hs : IsLine s) (ht : IsLine t) : IsLine (s ++ t) := by
  rw [IsLine, String.toList_append, List.mem_append]
  exact not_or.2 ⟨hs, ht⟩

theorem isLine_repr (n : ℕ) : IsLine n.repr := by
  rw [IsLine, Nat.toList_repr]
  exact fun hmem => absurd (Decimal.isDigit_of_mem_naturalDigits hmem) (by decide)

theorem isLine_number (x : Float) : IsLine (Number.text x) := by
  have htext : (Number.text x).toList = Decimal.plain.chars x := String.toList_ofList
  rw [IsLine, htext]
  exact Decimal.newline_not_mem_chars x

/-- A text of one kind of characters ends where another kind comes. -/
theorem takeWhile_append_eq {p : Char → Bool} {xs as : List Char} (hxs : ∀ c ∈ xs, p c)
    (has : ∀ a ∈ as.head?, p a = false) : (xs ++ as).takeWhile p = xs := by
  rw [List.takeWhile_append_of_pos hxs]
  cases as with
  | nil => exact List.append_nil xs
  | cons a as => rw [List.takeWhile_cons_of_neg (by simp [has a rfl]), List.append_nil]

/-- Two equal texts have the same part of one kind of characters in front. -/
theorem eq_of_append_eq {p : Char → Bool} {xs ys as bs : List Char} (hxs : ∀ c ∈ xs, p c) (hys : ∀ c ∈ ys, p c)
    (has : ∀ a ∈ as.head?, p a = false) (hbs : ∀ b ∈ bs.head?, p b = false) (h : xs ++ as = ys ++ bs) :
    xs = ys ∧ as = bs := by
  have hfront : xs = ys := by rw [← takeWhile_append_eq hxs has, h, takeWhile_append_eq hys hbs]
  rw [hfront, List.append_right_inj] at h
  exact ⟨hfront, h⟩

/-- The same for texts whose parts end at a mark of another kind. -/
theorem eq_of_append_cons_eq {p : Char → Bool} {mark : Char} {xs ys as bs : List Char} (hmark : p mark = false)
    (hxs : ∀ c ∈ xs, p c) (hys : ∀ c ∈ ys, p c) (h : xs ++ mark :: as = ys ++ mark :: bs) : xs = ys ∧ as = bs := by
  have hhead : ∀ rest, ∀ c ∈ (mark :: rest).head?, p c = false := fun rest c hc => Option.some.inj hc ▸ hmark
  obtain ⟨hfront, hrest⟩ := eq_of_append_eq hxs hys (hhead _) (hhead _) h
  exact ⟨hfront, (List.cons.inj hrest).2⟩

/-- A function that is injective between the members of two lists is so for the lists. -/
theorem eq_of_map_eq {β γ : Type} {f : β → γ} : ∀ {xs ys : List β}, (∀ x ∈ xs, ∀ y ∈ ys, f x = f y → x = y) →
    xs.map f = ys.map f → xs = ys
  | [], [], _, _ => rfl
  | x :: xs, y :: ys, h, heq => by
    obtain ⟨hfirst, hrest⟩ := List.cons.inj heq
    rw [h x List.mem_cons_self y List.mem_cons_self hfirst,
      eq_of_map_eq (fun a ha b hb => h a (List.mem_cons_of_mem x ha) b (List.mem_cons_of_mem y hb)) hrest]

section Kinds

theorem ValueKind.text_injective : Function.Injective ValueKind.text := by
  intro k k' h
  cases k <;> cases k' <;> first | rfl | exact absurd h (by decide)

/-- The kinds of the arguments, with commas between them. -/
def kindChars (kinds : List ValueKind) : List Char := (String.intercalate ", " (kinds.map ValueKind.text)).toList

/-- Each kind but the first stands behind a comma and a blank. -/
theorem kindChars_cons (kind : ValueKind) (kinds : List ValueKind) :
    kindChars (kind :: kinds) = kind.text.toList ++ kinds.flatMap fun kind => ',' :: ' ' :: kind.text.toList := by
  induction kinds generalizing kind with
  | nil => simp [kindChars]
  | cons next kinds ih =>
    have ih := ih next
    simp only [kindChars, String.toList_intercalate, List.map_cons] at ih ⊢
    rw [List.intercalate_cons_cons, ih, List.flatMap_cons, List.append_assoc]
    rfl

/-- All kinds are shown by texts of one length. -/
theorem length_text (kind : ValueKind) : kind.text.toList.length = 6 := by cases kind <;> rfl

theorem eq_of_flatMap_eq : ∀ {kinds kinds' : List ValueKind},
    (kinds.flatMap fun kind => ',' :: ' ' :: kind.text.toList) =
      (kinds'.flatMap fun kind => ',' :: ' ' :: kind.text.toList) → kinds = kinds'
  | [], [], _ => rfl
  | [], _ :: _, h => by simp at h
  | _ :: _, [], h => by simp at h
  | kind :: kinds, kind' :: kinds', h => by
    rw [List.flatMap_cons, List.flatMap_cons] at h
    obtain ⟨hkind, hkinds⟩ := List.append_inj h (by simp only [List.length_cons, length_text])
    rw [eq_of_flatMap_eq hkinds, ValueKind.text_injective (String.toList_inj.1 (List.cons.inj (List.cons.inj hkind).2).2)]

theorem kindChars_injective : Function.Injective kindChars := by
  intro kinds kinds' h
  have hne : ∀ kind kinds, kindChars (kind :: kinds) ≠ [] := fun kind kinds hnil => by
    rw [kindChars_cons] at hnil
    have hlength := congrArg List.length (List.append_eq_nil_iff.1 hnil).1
    rw [length_text] at hlength
    cases hlength
  cases kinds with
  | nil =>
    cases kinds' with
    | nil => rfl
    | cons kind kinds => exact absurd h.symm (hne kind kinds)
  | cons kind kinds =>
    cases kinds' with
    | nil => exact absurd h (hne kind kinds)
    | cons kind' kinds' =>
      rw [kindChars_cons, kindChars_cons] at h
      obtain ⟨hkind, hkinds⟩ := List.append_inj h (by rw [length_text, length_text])
      rw [eq_of_flatMap_eq hkinds, ValueKind.text_injective (String.toList_inj.1 hkind)]

/-- The kinds hold neither a parenthesis nor the end of a line. -/
theorem not_mem_kindChars (kinds : List ValueKind) : ')' ∉ kindChars kinds ∧ '\n' ∉ kindChars kinds := by
  have htext : ∀ kind : ValueKind, ')' ∉ kind.text.toList ∧ '\n' ∉ kind.text.toList := by
    intro kind
    cases kind <;> decide
  cases kinds with
  | nil => decide
  | cons kind kinds =>
    rw [kindChars_cons]
    simp only [List.mem_append, List.mem_flatMap, List.mem_cons, not_or, not_exists, not_and]
    refine ⟨⟨(htext kind).1, fun k _ => ⟨by decide, by decide, (htext k).1⟩⟩, (htext kind).2, fun k _ => ?_⟩
    exact ⟨by decide, by decide, (htext k).2⟩

end Kinds

/-! ## Outcomes -/

namespace CallOutcome

/-- A message stands on one line. -/
def IsLine : CallOutcome Float → Prop
  | failed message => SeriesFormula.IsLine message
  | _ => True

theorem toList_text_scalar (x : Float) :
    (scalar x).text.toList = 's' :: 'c' :: 'a' :: 'l' :: 'a' :: 'r' :: ' ' :: Decimal.plain.chars x := by
  have hnumber : (Number.text x).toList = Decimal.plain.chars x := String.toList_ofList
  change ("scalar " ++ Number.text x).toList = _
  rw [String.toList_append, hnumber]
  rfl

theorem toList_text_series (n : ℕ) : (series n : CallOutcome Float).text.toList =
    's' :: 'e' :: 'r' :: 'i' :: 'e' :: 's' :: '[' :: (Decimal.naturalDigits n ++ [']']) := by
  change ("series[" ++ n.repr ++ "]").toList = _
  rw [String.toList_append, String.toList_append, Nat.toList_repr]
  rfl

theorem toList_text_failed (message : String) : (failed message : CallOutcome Float).text.toList =
    'e' :: 'r' :: 'r' :: 'o' :: 'r' :: ':' :: ' ' :: message.toList := by
  change ("error: " ++ message).toList = _
  rw [String.toList_append]
  rfl

/-- **No two outcomes are shown alike.** -/
theorem text_injective : Function.Injective (text : CallOutcome Float → String) := by
  intro outcome outcome' h
  have h := congrArg String.toList h
  cases outcome <;> cases outcome' <;>
    simp only [toList_text_scalar, toList_text_series, toList_text_failed, List.cons.injEq, true_and, false_and,
      and_false, Char.reduceEq] at h
  · rw [Decimal.chars_injective h]
  · rename_i n n'
    rw [List.append_left_inj] at h
    have hvalue := congrArg Decimal.digitsValue h
    rw [Decimal.digitsValue_naturalDigits, Decimal.digitsValue_naturalDigits] at hvalue
    rw [hvalue]
  · rw [String.toList_inj.1 h]

theorem isLine_text {outcome : CallOutcome Float} (h : outcome.IsLine) : SeriesFormula.IsLine outcome.text := by
  cases outcome with
  | scalar x => exact .append (by decide) (isLine_number x)
  | series n => exact .append (.append (by decide) (isLine_repr n)) (by decide)
  | failed message => exact .append (by decide) h

end CallOutcome

/-! ## Records -/

namespace CallRecord

/-- What a record must keep to in order to be read back from its line. -/
structure IsPrintable (record : CallRecord Float) : Prop where
  depth : 1 ≤ record.depth
  function_ne_nil : record.function.toList ≠ []
  function : ∀ c ∈ record.function.toList, Formula.isNameChar c
  outcome : record.outcome.IsLine

/-- The parts of a line. -/
theorem toList_line (record : CallRecord Float) :
    record.line.toList = List.replicate ((record.depth - 1) * 2) ' ' ++ (record.function.toList ++
      '(' :: (kindChars record.argumentKinds ++ ')' :: ' ' :: '-' :: '>' :: ' ' :: record.outcome.text.toList)) := by
  simp only [line, String.toList_append, String.toList_ofList, kindChars]
  simp

theorem toList_line_ne_nil (record : CallRecord Float) : record.line.toList ≠ [] := by
  rw [toList_line]
  simp

/-- The name of a function does not start with a blank. -/
theorem IsPrintable.head_ne_blank {record : CallRecord Float} (h : record.IsPrintable) (rest : List Char) :
    ∀ c ∈ (record.function.toList ++ rest).head?, (c == ' ') = false := by
  intro c hc
  rw [List.head?_append_of_ne_nil _ h.function_ne_nil] at hc
  rw [beq_eq_false_iff_ne]
  rintro rfl
  exact absurd (h.function _ (List.mem_of_mem_head? hc)) (by decide)

/-- **No two records are printed alike.** -/
theorem line_injective {record record' : CallRecord Float} (h : record.IsPrintable) (h' : record'.IsPrintable)
    (hline : record.line = record'.line) : record = record' := by
  have hchars := congrArg String.toList hline
  rw [toList_line, toList_line] at hchars
  have hblank : ∀ n, ∀ c ∈ List.replicate n ' ', (c == ' ') = true := fun n c hc =>
    beq_iff_eq.2 (List.eq_of_mem_replicate hc)
  have hkind : ∀ kinds, ∀ c ∈ kindChars kinds, (c != ')') = true := fun kinds c hc =>
    bne_iff_ne.2 fun heq => (not_mem_kindChars kinds).1 (heq ▸ hc)
  -- the blanks in front end at the name, the name at a parenthesis and the kinds at the other one
  obtain ⟨hindent, hchars⟩ := eq_of_append_eq (hblank _) (hblank _) (h.head_ne_blank _) (h'.head_ne_blank _) hchars
  obtain ⟨hfunction, hchars⟩ := eq_of_append_cons_eq (by decide) h.function h'.function hchars
  obtain ⟨hkinds, hchars⟩ := eq_of_append_cons_eq (by decide) (hkind _) (hkind _) hchars
  simp only [List.cons.injEq, true_and] at hchars
  have hdepth : record.depth = record'.depth := by
    have hlength := congrArg List.length hindent
    rw [List.length_replicate, List.length_replicate] at hlength
    have hpos := h.depth
    have hpos' := h'.depth
    omega
  obtain ⟨depth, function, kinds, outcome⟩ := record
  obtain ⟨depth', function', kinds', outcome'⟩ := record'
  rw [CallRecord.mk.injEq]
  exact ⟨hdepth, String.toList_inj.1 hfunction, kindChars_injective hkinds,
    CallOutcome.text_injective (String.toList_inj.1 hchars)⟩

/-- A record is printed on one line. -/
theorem isLine_line {record : CallRecord Float} (h : record.IsPrintable) : SeriesFormula.IsLine record.line := by
  have hindent : '\n' ∉ List.replicate ((record.depth - 1) * 2) ' ' := fun hmem =>
    absurd (List.eq_of_mem_replicate hmem) (by decide)
  have hname : '\n' ∉ record.function.toList := fun hmem => absurd (h.function _ hmem) (by decide)
  have hkinds := (not_mem_kindChars record.argumentKinds).2
  have houtcome : '\n' ∉ record.outcome.text.toList := CallOutcome.isLine_text h.outcome
  rw [SeriesFormula.IsLine, toList_line]
  simp only [List.mem_append, List.mem_cons, not_or]
  exact ⟨hindent, hname, by decide, hkinds, by decide, by decide, by decide, by decide, by decide, houtcome⟩

end CallRecord

/-! ## Ledgers -/

namespace Ledger

/-- The lines of what is printed. -/
def lines (ledger : Ledger Float) : List (List Char) := ledger.text.toList.splitOn '\n'

/-- The lines are those of the records. -/
theorem lines_eq {ledger : Ledger Float} (hne : ledger.records ≠ [])
    (h : ∀ record ∈ ledger.records, record.IsPrintable) :
    ledger.lines = ledger.records.map fun record => record.line.toList := by
  have hmap : (ledger.records.map CallRecord.line).map String.toList =
      ledger.records.map fun record => record.line.toList := List.map_map
  rw [lines, text, String.toList_intercalate, hmap]
  refine List.splitOn_intercalate '\n' ?_ (by simpa using hne)
  rw [List.forall_mem_map]
  exact fun record hrecord => CallRecord.isLine_line (h record hrecord)

/-- **A printed ledger of such records tells the whole ledger.** -/
theorem eq_of_text_eq {ledger ledger' : Ledger Float} (h : ∀ record ∈ ledger.records, record.IsPrintable)
    (h' : ∀ record ∈ ledger'.records, record.IsPrintable) (htext : ledger.text = ledger'.text) : ledger = ledger' := by
  have hlines : ledger.lines = ledger'.lines := congrArg (fun text => text.toList.splitOn '\n') htext
  obtain ⟨records⟩ := ledger
  obtain ⟨records'⟩ := ledger'
  rw [Ledger.mk.injEq]
  have hempty : ∀ {record : CallRecord Float} {records}, (∀ r ∈ record :: records, r.IsPrintable) →
      (⟨[]⟩ : Ledger Float).lines ≠ (⟨record :: records⟩ : Ledger Float).lines := by
    intro record records h heq
    rw [lines_eq (List.cons_ne_nil _ _) h] at heq
    exact record.toList_line_ne_nil (List.cons.inj heq).1.symm
  cases records with
  | nil =>
    cases records' with
    | nil => rfl
    | cons record records => exact absurd hlines (hempty h')
  | cons record records =>
    cases records' with
    | nil => exact absurd hlines.symm (hempty h)
    | cons record' records' =>
      rw [lines_eq (List.cons_ne_nil _ _) h, lines_eq (List.cons_ne_nil _ _) h'] at hlines
      exact eq_of_map_eq (fun r hr r' hr' hchars => CallRecord.line_injective (h r hr) (h' r' hr')
        (String.toList_inj.1 hchars)) hlines

end Ledger

/-! ## Runs -/

/-- A call has a depth from one on and a function with a name of capitals. -/
structure CallSite.IsNamed (site : CallSite) : Prop where
  depth : 1 ≤ site.depth
  function_ne_nil : site.function.toList ≠ []
  function : ∀ c ∈ site.function.toList, Formula.isNameChar c

namespace Formula

open SeriesFormula.Expr

mutual

/-- The calls of an expression that is read are of functions with names. -/
theorem Derives.isNamed_of_mem_callsAt : ∀ {cs : List Char} {e : Expr Float}, Derives cs e → ∀ {depth : ℕ},
    ∀ site ∈ e.callsAt depth, site.IsNamed
  | _, _, .call hne hname hargs, depth => by
    rw [callsAt, List.forall_mem_append, List.forall_mem_singleton]
    refine ⟨hargs.isNamed_of_mem_callsOfList, Nat.succ_pos depth, ?_, ?_⟩
    · rwa [String.toList_ofList]
    · rwa [String.toList_ofList]
  | _, _, .identifier _ _, _ => by
    rw [callsAt]
    exact List.forall_mem_nil _
  | _, _, .number _ _, _ => by
    rw [callsAt]
    exact List.forall_mem_nil _

theorem DerivesArguments.isNamed_of_mem_callsOfList : ∀ {cs : List Char} {es : List (Expr Float)},
    DerivesArguments cs es → ∀ {depth : ℕ}, ∀ site ∈ callsOfList depth es, site.IsNamed
  | _, _, .none, _ => by
    rw [callsOfList]
    exact List.forall_mem_nil _
  | _, _, .last he, _ => by
    rw [callsOfList, callsOfList, List.append_nil]
    exact he.isNamed_of_mem_callsAt
  | _, _, .more he hes, _ => by
    rw [callsOfList, List.forall_mem_append]
    exact ⟨he.isNamed_of_mem_callsAt, hes.isNamed_of_mem_callsOfList⟩

end

end Formula

section Records

variable {α : Type} [Number α]

/-- The record tells how a call of its function has ended. -/
def CallRecord.IsOfCall (registry : Registry α) (record : CallRecord α) : Prop :=
  ∃ spec values, registry.get? record.function = some spec ∧ record.outcome = .ofResult (spec.call values)

/-- **One call** adds its record to those of its arguments. -/
theorem Environment.isOfCall_of_mem_apply {env : Environment α} {depth : ℕ} {name : String}
    {args : Evaluation α (List (Value α))} (h : ∀ record ∈ args.records, record.IsOfCall env.registry) :
    ∀ record ∈ (env.apply depth name args).records, record.IsOfCall env.registry := by
  obtain ⟨result, records⟩ := args
  cases result with
  | error error => exact h
  | ok values =>
    cases hget : env.registry.get? name with
    | none =>
      rw [apply_of_none depth hget]
      exact h
    | some spec =>
      rw [apply_of_some depth hget]
      exact List.forall_mem_append.2 ⟨h, List.forall_mem_singleton.2 ⟨spec, values, hget, rfl⟩⟩

namespace Expr

variable (env : Environment α)

mutual

/-- Each record of an evaluation is of a call of a function in the table. -/
theorem isOfCall_of_mem_evaluateAt : ∀ (depth : ℕ) (e : Expr α),
    ∀ record ∈ (e.evaluateAt env depth).records, record.IsOfCall env.registry
  | _, .literal value => by
    rw [evaluateAt]
    exact List.forall_mem_nil _
  | _, .identifier name => by
    rw [evaluateAt]
    cases env.store (Text.lower name) <;> exact List.forall_mem_nil _
  | depth, .call name args => by
    rw [evaluateAt_call]
    split
    · exact List.forall_mem_nil _
    · exact Environment.isOfCall_of_mem_apply (isOfCall_of_mem_evaluateArguments (depth + 1) args)

theorem isOfCall_of_mem_evaluateArguments : ∀ (depth : ℕ) (es : List (Expr α)),
    ∀ record ∈ (evaluateArguments env depth es).records, record.IsOfCall env.registry
  | _, [] => by
    rw [evaluateArguments]
    exact List.forall_mem_nil _
  | depth, e :: es => by
    have hfirst := isOfCall_of_mem_evaluateAt depth e
    rw [evaluateArguments]
    generalize e.evaluateAt env depth = first at hfirst
    obtain ⟨result, records⟩ := first
    cases result with
    | error error => exact hfirst
    | ok value => exact List.forall_mem_append.2 ⟨hfirst, isOfCall_of_mem_evaluateArguments depth es⟩

end

end Expr

end Records

theorem isLine_kind (kind : ValueKind) : IsLine kind.text := by cases kind <;> decide

/-- **Messages of calls hold names and numbers only.** -/
theorem FunctionSpec.isLine_message {spec : FunctionSpec Float} (hname : IsLine spec.name)
    {values : List (Value Float)} {error : FormulaError Float} (h : spec.call values = .error error) :
    IsLine error.message := by
  have hanswers := spec.answers_call values
  rw [h] at hanswers
  cases hanswers with
  | arity _ =>
    exact (((hname.append (by decide)).append (isLine_repr _)).append (by decide)).append (isLine_repr _)
  | kind _ _ _ _ _ =>
    refine IsLine.append ?_ (isLine_kind _)
    refine IsLine.append (IsLine.append ?_ (isLine_kind _)) (by decide)
    exact ((hname.append (by decide)).append (isLine_repr _)).append (by decide)
  | periods _ _ => exact (hname.append (by decide)).append (isLine_number _)

/-- **A formula that is run leaves printable records**, whatever functions are in the table. -/
theorem Run.isPrintable {specs : List (FunctionSpec Float)} {run : Run} (h : run.engine.registry = .ofList specs) :
    ∀ record ∈ run.evaluation.records, record.IsPrintable := by
  cases hparse : run.engine.parse run.formula with
  | error error =>
    rw [evaluation, Engine.run_of_parse_eq_error hparse]
    exact List.forall_mem_nil _
  | ok e =>
    rw [records_evaluation hparse]
    intro record hrecord
    have htrace := Expr.traces_evaluateAt ⟨run.store, run.engine.registry, run.engine.policy⟩ 0 e
    have hsite : record.site.IsNamed :=
      (Formula.parse_eq_ok_iff.1 hparse).2.1.isNamed_of_mem_callsAt _
        (htrace.front.subset (List.mem_map_of_mem hrecord))
    obtain ⟨spec, values, hget, houtcome⟩ := Expr.isOfCall_of_mem_evaluateAt _ 0 e record hrecord
    refine ⟨hsite.depth, hsite.function_ne_nil, hsite.function, ?_⟩
    rw [houtcome]
    cases hcall : spec.call values with
    | ok v => cases v <;> trivial
    | error error =>
      have hname : IsLine spec.name := by
        rw [h] at hget
        rw [(Registry.of_get?_ofList hget).2]
        exact fun hmem => absurd (hsite.function _ hmem) (by decide)
      exact FunctionSpec.isLine_message hname hcall

/-- The value of a formula that has been read. -/
theorem Run.exists_of_value {run : Run} {v : Value Float} (h : run.evaluation.result = .ok v) :
    ∃ e, run.engine.parse run.formula = .ok e ∧ (e.evaluate run.environment).result = .ok v := by
  cases hparse : run.engine.parse run.formula with
  | error error =>
    rw [evaluation, Engine.run_of_parse_eq_error hparse] at h
    cases h
  | ok e =>
    rw [evaluation, Engine.run_of_parse_eq_ok hparse] at h
    exact ⟨e, rfl, h⟩

/-- **Runs with the same records and with values have the same trees of calls.** -/
theorem Run.exists_callTrees_eq {run run' : Run} {v v' : Value Float} (hv : run.evaluation.result = .ok v)
    (hv' : run'.evaluation.result = .ok v') (h : run.evaluation.records = run'.evaluation.records) :
    ∃ e e', run.engine.parse run.formula = .ok e ∧ run'.engine.parse run'.formula = .ok e' ∧
      e.callTrees = e'.callTrees := by
  obtain ⟨e, hparse, hvalue⟩ := exists_of_value hv
  obtain ⟨e', hparse', hvalue'⟩ := exists_of_value hv'
  refine ⟨e, e', hparse, hparse', Expr.callTrees_eq_of_calls ?_⟩
  -- a run with a value records all calls
  have hsites := ((Expr.traces_evaluateAt run.environment 0 e).of_ok hvalue).1
  have hsites' := ((Expr.traces_evaluateAt run'.environment 0 e').of_ok hvalue').1
  rw [records_evaluation hparse, records_evaluation hparse'] at h
  rw [Expr.calls, Expr.calls, ← hsites, ← hsites']
  exact congrArg (List.map CallRecord.site) h

/-- The ledger of one run. -/
theorem Ledger.records_ofRuns_singleton (run : Run) : (ofRuns [run]).records = run.evaluation.records := by
  rw [records_ofRuns, List.flatMap_singleton]

/-- **The printed trace is faithful.** Let two formulas be run, each with a table of functions, limits, data and an empty
ledger of its own. If the ledgers are printed alike, they are equal, floats that are no numbers being one float; and a
ledger with records is printed in as many lines. If both formulas also have values, the trees of their calls are the
same: functions and nesting in order, without the identifiers and numbers. -/
theorem Ledger.text_faithful (specs specs' : List (FunctionSpec Float)) (policy policy' : Policy)
    (formula formula' : String) (store store' : Store Float) :
    let run : Run := ⟨⟨.ofList specs, policy⟩, formula, store⟩
    let run' : Run := ⟨⟨.ofList specs', policy'⟩, formula', store'⟩
    ((ofRuns [run]).text = (ofRuns [run']).text → ofRuns [run] = ofRuns [run']) ∧
    ((ofRuns [run]).records ≠ [] → (ofRuns [run]).lines.length = (ofRuns [run]).records.length) ∧
    ∀ v v', run.evaluation.result = .ok v → run'.evaluation.result = .ok v' →
      (ofRuns [run]).text = (ofRuns [run']).text →
      ∃ e e', Formula.parse policy formula = .ok e ∧ Formula.parse policy' formula' = .ok e' ∧
        e.callTrees = e'.callTrees := by
  intro run run'
  have hprint : ∀ record ∈ (ofRuns [run]).records, record.IsPrintable := by
    rw [records_ofRuns_singleton]
    exact Run.isPrintable rfl
  have hprint' : ∀ record ∈ (ofRuns [run']).records, record.IsPrintable := by
    rw [records_ofRuns_singleton]
    exact Run.isPrintable rfl
  refine ⟨eq_of_text_eq hprint hprint', fun hne => ?_, fun v v' hv hv' htext => ?_⟩
  · rw [lines_eq hne hprint, List.length_map]
  · have hledger := congrArg Ledger.records (eq_of_text_eq hprint hprint' htext)
    rw [records_ofRuns_singleton, records_ofRuns_singleton] at hledger
    exact Run.exists_callTrees_eq hv hv' hledger

/-- Two formulas with other numbers and other data leave the same trace, which tells that they are the same calls. -/
theorem Ledger.text_faithful_momentum :
    let run : Run := ⟨.standard, "MOMENTUM(MA(GDP,2),1)", pairStore 1.5 2⟩
    let run' : Run := ⟨.standard, "MOMENTUM(MA(GDP,2),7)", pairStore 3 4⟩
    (ofRuns [run]).text = (ofRuns [run']).text ∧ (ofRuns [run]).records.length = 2 ∧
      ofRuns [run] = ofRuns [run'] ∧ (ofRuns [run]).lines.length = (ofRuns [run]).records.length ∧
      ∃ e e', Formula.parse .standard run.formula = .ok e ∧ Formula.parse .standard run'.formula = .ok e' ∧
        e.callTrees = e'.callTrees := by
  have hparse : Engine.standard.parse "MOMENTUM(MA(GDP,2),1)" =
      .ok (.call "MOMENTUM" [.call "MA" [.identifier "GDP", .literal 2], .literal 1]) := by with_unfolding_all rfl
  have hparse' : Engine.standard.parse "MOMENTUM(MA(GDP,2),7)" =
      .ok (.call "MOMENTUM" [.call "MA" [.identifier "GDP", .literal 2], .literal 7]) := by with_unfolding_all rfl
  intro run run'
  have hrecords : (ofRuns [run]).records =
      [⟨2, "MA", [.series, .scalar], .series 1⟩, ⟨1, "MOMENTUM", [.series, .scalar], .series 0⟩] := by
    rw [records_ofRuns_singleton, Run.records_evaluation hparse]
    decide +kernel
  have hrecords' : (ofRuns [run']).records = (ofRuns [run]).records := by
    rw [hrecords, records_ofRuns_singleton, Run.records_evaluation hparse']
    decide +kernel
  have htext : (ofRuns [run]).text = (ofRuns [run']).text := by rw [text, text, hrecords']
  have hresult : ∃ v, run.evaluation.result = .ok v := by
    rw [Run.evaluation, Engine.run_of_parse_eq_ok hparse]
    exact ⟨.series ⟨"MOMENTUM(MA(gdp,2),1)", []⟩, by decide +kernel⟩
  have hresult' : ∃ v, run'.evaluation.result = .ok v := by
    rw [Run.evaluation, Engine.run_of_parse_eq_ok hparse']
    exact ⟨.series ⟨"MOMENTUM(MA(gdp,2),7)", []⟩, by decide +kernel⟩
  obtain ⟨v, hv⟩ := hresult
  obtain ⟨v', hv'⟩ := hresult'
  obtain ⟨hledger, hlines, htrees⟩ := text_faithful builtinFunctions builtinFunctions .standard .standard run.formula
    run'.formula run.store run'.store
  have hne : (ofRuns [run]).records ≠ [] := by
    rw [hrecords]
    exact List.cons_ne_nil _ _
  exact ⟨htext, congrArg List.length hrecords, hledger htext, hlines hne, htrees v v' hv hv' htext⟩

end SeriesFormula
