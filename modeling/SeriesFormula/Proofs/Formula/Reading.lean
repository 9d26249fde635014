import SeriesFormula.Proofs.Formula.Cutting
import SeriesFormula.Proofs.Result

/-!
# Reading is the grammar

`Formula.parse` against the grammar of `Derives`, for every text and every policy.

- completeness: a text with a derivation is read as its tree, unless that is nested too deep, which is then what is
  reported (`Derives.parseNode_eq`); so the tree of a text is unique (`Derives.unique`);
- soundness: what is read has a derivation (`derives_of_parseNode`). The proof never asks for balanced parentheses:
  the pieces of a call with commas between them are the call's text (`intercalate_splitArguments`), so that pieces
  with derivations give one of the whole, and balance comes out of the derivation;
- each refusal names a text that is no expression or the limit of the depth (`refused_of_parseNode`).
-/

namespace SeriesFormula.Formula

/-! ## One step of the reader -/

section Step

variable {policy : Policy} {depth : Nat} {cs : List Char}

/-- An argument is shorter than its call. -/
theorem length_lt_of_argument {name inner piece : List Char} (hcall : splitCall cs = some (name, inner))
    (hmem : piece ∈ splitArguments inner) : piece.length < cs.length :=
  Nat.lt_of_le_of_lt (length_le_of_mem_splitArguments hmem) (length_lt_of_splitCall hcall)

/-- Induction over texts as they are read: calls are reduced to their pieces. -/
@[elab_as_elim]
theorem text_induction {P : List Char → Prop} (leaf : ∀ cs, splitCall cs = none → P cs)
    (call : ∀ cs name inner, splitCall cs = some (name, inner) → (∀ piece ∈ splitArguments inner, P piece) → P cs)
    (cs : List Char) : P cs :=
  match h : splitCall cs with
  | none => leaf cs h
  | some (name, inner) => call cs name inner h fun piece hm =>
    have : piece.length < cs.length := length_lt_of_argument h hm
    text_induction leaf call piece
termination_by cs.length

theorem parseNode_of_leaf (h : splitCall cs = none) : parseNode policy depth cs = parseLeaf cs := by
  rw [parseNode]
  split
  · rfl
  · rename_i h'; rw [h] at h'; cases h'

/-- A call is refused at the limit of the depth; otherwise its pieces are read one deeper. -/
theorem parseNode_of_call {name inner : List Char} (h : splitCall cs = some (name, inner)) :
    parseNode policy depth cs = if policy.maxDepth ≤ depth then .error (.limit (.depth policy.maxDepth))
      else ((splitArguments inner).mapM (parseNode policy (depth + 1))).map (.call (String.ofList name)) := by
  rw [parseNode]
  split
  · rename_i h'; rw [h] at h'; cases h'
  · rename_i name' inner' h'
    rw [h] at h'
    cases h'
    rw [List.mapM_subtype fun _ _ => rfl, List.unattach_attach]
    unfold Policy.admitDepth
    split
    · rename_i hd; rw [if_pos (by omega)]; rfl
    · rename_i hd
      rw [if_neg (by omega)]
      cases (splitArguments inner).mapM (parseNode policy (depth + 1)) <;> rfl

/-- A call that is read is the name with the pieces as they are read one deeper. -/
theorem exists_of_parseNode_call {name inner : List Char} {e : Expr Float} (hcall : splitCall cs = some (name, inner))
    (h : parseNode policy depth cs = .ok e) : ∃ args,
      (splitArguments inner).mapM (parseNode policy (depth + 1)) = .ok args ∧ .call (String.ofList name) args = e := by
  rw [parseNode_of_call hcall] at h
  split at h
  · cases h
  · exact map_eq_ok_iff.1 h

end Step

/-! ## Completeness -/

/-- What is said of a tree inside of `depth` calls: the tree, or the limit that it exceeds. -/
def verdict {β : Type} (policy : Policy) (depth : Nat) (x : β) : Except (FormulaError Float) β :=
  if depth ≤ policy.maxDepth then .ok x else .error (.limit (.depth policy.maxDepth))

theorem parseLeaf_of_identifier {c : Char} {cs : List Char} (hc : isNameChar c)
    (hcs : ∀ d ∈ cs, isNameChar d ∨ Decimal.isDigit d) :
    parseLeaf (c :: cs) = .ok (.identifier (String.ofList (c :: cs))) := by
  have hid : isIdentifier (c :: cs) = true := by
    simp only [isIdentifier, Bool.and_eq_true, List.all_eq_true, Bool.or_eq_true]
    exact ⟨hc, hcs⟩
  rw [parseLeaf, if_pos hid]

/-- A number is no identifier. -/
theorem isIdentifier_of_spells {cs : List Char} {l : Decimal.Literal} (h : Decimal.Spells cs l) :
    isIdentifier cs = false := by
  obtain ⟨c, rest, rfl, hc⟩ := h.head
  have : isNameChar c = false := by
    rcases hc with hc | rfl | rfl | rfl
    · exact isNameChar_of_isDigit hc
    all_goals decide
  simp [isIdentifier, this]

theorem parseLeaf_of_spells {cs : List Char} {l : Decimal.Literal} (h : Decimal.Spells cs l)
    (hf : Decimal.isFinite l.value) : parseLeaf cs = .ok (.literal l.value) := by
  have hn : Decimal.numeric? cs = some l.value := (Decimal.numeric?_eq_some_iff h.solid).2 ⟨l, h, hf, rfl⟩
  rw [parseLeaf, isIdentifier_of_spells h, if_neg (by simp), hn]

section Complete

variable {policy : Policy}

/-- Reading the arguments of a call one after the other. -/
theorem mapM_cons_verdict {f : List Char → Except (FormulaError Float) (Expr Float)} {p : List Char}
    {ps : List (List Char)} {d ds : Nat} {e : Expr Float} {es : List (Expr Float)} (hp : f p = verdict policy d e)
    (hps : ps.mapM f = verdict policy ds es) : (p :: ps).mapM f = verdict policy (max d ds) (e :: es) := by
  rw [List.mapM_cons, hp, hps]
  unfold verdict
  by_cases hd : d ≤ policy.maxDepth
  · by_cases hds : ds ≤ policy.maxDepth
    · rw [if_pos hd, if_pos hds, if_pos (by omega)]; rfl
    · rw [if_pos hd, if_neg hds, if_neg (by omega)]; rfl
  · rw [if_neg hd, if_neg (show ¬ max d ds ≤ policy.maxDepth by omega)]; rfl

mutual

/-- **A formula is read as its tree, or refused for its depth.** -/
theorem Derives.parseNode_eq : ∀ {cs : List Char} {e : Expr Float}, Derives cs e → ∀ {depth : Nat},
    depth ≤ policy.maxDepth → parseNode policy depth cs = verdict policy (depth + e.depth) e
  | _, _, .call hne hname hargs, depth, h => by
    rw [parseNode_of_call (splitCall_of_name hne hname)]
    by_cases hd : policy.maxDepth ≤ depth
    · rw [if_pos hd, verdict, Expr.depth, if_neg (by omega)]
    · rw [if_neg hd, hargs.mapM_parseNode_eq (by omega), Expr.depth, verdict, verdict, ← Nat.add_assoc]
      split <;> rfl
  | _, _, .identifier hc hcs, depth, h => by
    have hw := isWordChar_of_identifier (isNameChar_or_isDigit hc hcs)
    rw [parseNode_of_leaf (splitCall_eq_none_of_isWordChar hw), parseLeaf_of_identifier hc hcs, verdict, Expr.depth,
      if_pos (by omega)]
  | _, _, .number hl hf, depth, h => by
    rw [parseNode_of_leaf (splitCall_eq_none_of_isWordChar (isWordChar_of_spells hl)), parseLeaf_of_spells hl hf,
      verdict, Expr.depth, if_pos (by omega)]

theorem DerivesArguments.mapM_parseNode_eq : ∀ {cs : List Char} {es : List (Expr Float)}, DerivesArguments cs es →
    ∀ {depth : Nat}, depth ≤ policy.maxDepth →
    (splitArguments cs).mapM (parseNode policy depth) = verdict policy (depth + Expr.depthOfList es) es
  | _, _, .none, depth, h => by
    rw [verdict, Expr.depthOfList, if_pos (by omega)]
    rfl
  | _, _, .last he, depth, h => by
    have hnil : [].mapM (parseNode policy depth) = verdict policy depth [] := by rw [verdict, if_pos h]; rfl
    rw [splitArguments_last he, mapM_cons_verdict (he.parseNode_eq h) hnil, Expr.depthOfList, Expr.depthOfList]
    congr 1
    omega
  | _, _, .more he hes, depth, h => by
    rw [splitArguments_more he hes.ne_nil, mapM_cons_verdict (he.parseNode_eq h) (hes.mapM_parseNode_eq h)]
    conv_rhs => rw [Expr.depthOfList]
    congr 1
    omega

end

end Complete

/-- A text has one tree. -/
theorem Derives.unique {cs : List Char} {e f : Expr Float} (he : Derives cs e) (hf : Derives cs f) : e = f := by
  -- a policy that lets both trees through
  let policy : Policy := ⟨max e.depth f.depth, 0⟩
  have hpe : parseNode policy 0 cs = .ok e := by
    rw [he.parseNode_eq (Nat.zero_le _), verdict, if_pos (by simp only [policy]; omega)]
  have hpf : parseNode policy 0 cs = .ok f := by
    rw [hf.parseNode_eq (Nat.zero_le _), verdict, if_pos (by simp only [policy]; omega)]
  exact Except.ok.inj (hpe.symm.trans hpf)

/-! ## Soundness -/

/-- An identifier or a number has a derivation. -/
theorem derives_of_parseLeaf {cs : List Char} {e : Expr Float} (hs : Text.Solid cs) (h : parseLeaf cs = .ok e) :
    Derives cs e := by
  unfold parseLeaf at h
  split at h
  · rename_i hid
    cases h
    cases cs with
    | nil => cases hid
    | cons c cs =>
      simp only [isIdentifier, Bool.and_eq_true, List.all_eq_true, Bool.or_eq_true] at hid
      exact .identifier hid.1 hid.2
  · split at h
    · rename_i x hx
      cases h
      obtain ⟨l, hl, hf, rfl⟩ := (Decimal.numeric?_eq_some_iff hs).1 hx
      exact .number hl hf
    · cases h

/-- Pieces with derivations, with commas between them, are arguments. -/
theorem derivesArguments_intercalate : ∀ {pieces : List (List Char)} {es : List (Expr Float)},
    List.Forall₂ Derives pieces es → DerivesArguments (List.intercalate [','] pieces) es
  | _, _, .nil => .none
  | [p], [e], .cons he .nil => by
    rw [List.intercalate_singleton]
    exact .last he
  | p :: q :: ps, e :: f :: es, .cons he hes => by
    rw [List.intercalate_cons_cons, List.append_assoc]
    exact .more he (derivesArguments_intercalate hes)

/-- The pieces that a text without blanks is cut into have none. -/
theorem solid_of_mem_splitArguments {cs piece : List Char} (h : Text.Solid cs) (hp : piece ∈ splitArguments cs) :
    Text.Solid piece := fun c hc => h c ((isInfix_of_mem_splitArguments hp).subset hc)

/-- **What is read has a derivation.** -/
theorem derives_of_parseNode {policy : Policy} {cs : List Char} : ∀ {depth : Nat} {e : Expr Float}, Text.Solid cs →
    parseNode policy depth cs = .ok e → Derives cs e := by
  induction cs using text_induction with
  | leaf cs hcall =>
    intro depth e hs h
    rw [parseNode_of_leaf hcall] at h
    exact derives_of_parseLeaf hs h
  | call cs name inner hcall ih =>
    intro depth e hs h
    obtain ⟨args, hargs, rfl⟩ := exists_of_parseNode_call hcall h
    obtain ⟨hne, hname, rfl⟩ := splitCall_eq_some_iff.1 hcall
    have hinner : Text.Solid inner := fun c hc => hs c (by simp [hc])
    have hread : ∀ p ∈ splitArguments inner, ∀ e, parseNode policy (depth + 1) p = .ok e → Derives p e :=
      fun p hp e he => ih p hp (solid_of_mem_splitArguments hinner hp) he
    have hpieces : List.Forall₂ Derives (splitArguments inner) args :=
      ((List.forall₂_and_left _ _).2 ⟨hread, mapM_eq_ok_iff.1 hargs⟩).imp fun p e h => h.1 e h.2
    have hargs' := derivesArguments_intercalate hpieces
    rw [intercalate_splitArguments] at hargs'
    exact .call hne hname hargs'

/-- A text that is not read holds a part that is no expression, or is nested too deep. -/
theorem refused_of_parseNode {policy : Policy} {cs : List Char} : ∀ {depth : Nat} {error : FormulaError Float},
    parseNode policy depth cs = .error error →
    (∃ t, error = .invalidExpression t) ∨ error = .limit (.depth policy.maxDepth) := by
  induction cs using text_induction with
  | leaf cs hcall =>
    intro depth error h
    rw [parseNode_of_leaf hcall] at h
    unfold parseLeaf at h
    split at h
    · cases h
    · split at h <;> cases h
      exact .inl ⟨_, rfl⟩
  | call cs name inner hcall ih =>
    intro depth error h
    rw [parseNode_of_call hcall] at h
    split at h
    · cases h; exact .inr rfl
    · cases hargs : (splitArguments inner).mapM (parseNode policy (depth + 1)) with
      | ok args => rw [hargs] at h; cases h
      | error error' =>
        rw [hargs] at h
        cases h
        obtain ⟨p, hp, he⟩ := exists_of_mapM_eq_error hargs
        exact ih p hp he

/-! ## Whole formulas -/

section Whole

variable {policy : Policy} {formula : String}

theorem parse_of_long (h : policy.maxLength < formula.utf8ByteSize) :
    parse policy formula = .error (.limit (.length formula.utf8ByteSize policy.maxLength)) := by
  rw [parse, Policy.admitFormula, if_pos h]
  rfl

theorem parse_of_blank (h : formula.utf8ByteSize ≤ policy.maxLength) (hb : Text.squeeze formula.toList = []) :
    parse policy formula = .error .empty := by
  rw [parse, Policy.admitFormula, if_neg (by omega), hb]
  rfl

theorem parse_of_text (h : formula.utf8ByteSize ≤ policy.maxLength) (hb : Text.squeeze formula.toList ≠ []) :
    parse policy formula = parseNode policy 0 (Text.squeeze formula.toList) := by
  have he : (Text.squeeze formula.toList).isEmpty = false := by simpa using hb
  simp only [parse, Policy.admitFormula, if_neg (Nat.not_lt.2 h), he]
  rfl

/-- A formula's text without the blanks is read as its tree, or refused for its depth. -/
theorem parse_of_derives {e : Expr Float} (h : formula.utf8ByteSize ≤ policy.maxLength)
    (he : Derives (Text.squeeze formula.toList) e) : parse policy formula = verdict policy e.depth e := by
  rw [parse_of_text h he.ne_nil, he.parseNode_eq (Nat.zero_le _), Nat.zero_add]

/-- **A text is read as a tree iff it is short enough, has the tree, and the tree is not nested too deep.** -/
theorem parse_eq_ok_iff {e : Expr Float} : parse policy formula = .ok e ↔
    formula.utf8ByteSize ≤ policy.maxLength ∧ Derives (Text.squeeze formula.toList) e ∧ e.depth ≤ policy.maxDepth := by
  constructor
  · intro h
    by_cases hlen : formula.utf8ByteSize ≤ policy.maxLength
    · by_cases hb : Text.squeeze formula.toList = []
      · rw [parse_of_blank hlen hb] at h; cases h
      · have he : Derives (Text.squeeze formula.toList) e := by
          rw [parse_of_text hlen hb] at h
          exact derives_of_parseNode (Text.solid_squeeze _) h
        rw [parse_of_derives hlen he, verdict] at h
        split at h
        · rename_i hd; exact ⟨hlen, he, hd⟩
        · cases h
    · rw [parse_of_long (by omega)] at h; cases h
  · rintro ⟨hlen, he, hd⟩
    rw [parse_of_derives hlen he, verdict, if_pos hd]

/-- A text that is neither too long nor blank is refused for no other reasons. -/
theorem refused_of_parse {error : FormulaError Float} (h : formula.utf8ByteSize ≤ policy.maxLength)
    (hb : Text.squeeze formula.toList ≠ []) (hp : parse policy formula = .error error) :
    (∃ t, error = .invalidExpression t) ∨ error = .limit (.depth policy.maxDepth) := by
  rw [parse_of_text h hb] at hp
  exact refused_of_parseNode hp

/-- Only too long a text is reported as too long. -/
theorem long_of_parse {bytes limit : Nat} (hp : parse policy formula = .error (.limit (.length bytes limit))) :
    policy.maxLength < formula.utf8ByteSize := by
  refine Nat.lt_of_not_le fun h => ?_
  by_cases hb : Text.squeeze formula.toList = []
  · rw [parse_of_blank h hb] at hp; cases hp
  · rcases refused_of_parse h hb hp with ⟨t, he⟩ | he <;> cases he

/-- Only blank texts are reported as empty. -/
theorem blank_of_parse (h : formula.utf8ByteSize ≤ policy.maxLength) (hp : parse policy formula = .error .empty) :
    Text.squeeze formula.toList = [] := by
  by_cases hb : Text.squeeze formula.toList = []
  · exact hb
  · rcases refused_of_parse h hb hp with ⟨t, he⟩ | he <;> cases he

/-- Blanks do not matter for the balance of parentheses. -/
theorem balanced_of_squeeze {cs : List Char} (h : Balanced (Text.squeeze cs)) : Balanced cs := by
  have hopen : Text.isBlank '(' = false := by decide
  have hclose : Text.isBlank ')' = false := by decide
  refine ⟨fun n => ?_, ?_⟩
  · have hpre : Text.squeeze (cs.take n) <+: Text.squeeze cs := (List.take_prefix n cs).filter _
    have hn := h.1 (Text.squeeze (cs.take n)).length
    rwa [← List.prefix_iff_eq_take.1 hpre, Text.count_squeeze _ hopen, Text.count_squeeze _ hclose] at hn
  · rw [← Text.count_squeeze _ hopen, ← Text.count_squeeze _ hclose, h.2]

end Whole

/-- **Reading accepts exactly the grammar and decides the limits exactly.** With `cs` the text without its blanks:
a text is too long iff it has more bytes than allowed, and of the others exactly those without any character but blanks
are empty. If `cs` has a tree, it has no other, and the tree is the result unless it is nested too deep, which is then
the error. If `cs` has no tree, some part of it is reported as no expression, or the depth. Nothing with a quote, a
backslash or parentheses out of balance is ever read. -/
theorem parse_decides_grammar (policy : Policy) (formula : String) :
    ((∃ bytes limit, parse policy formula = .error (.limit (.length bytes limit))) ↔
      policy.maxLength < formula.utf8ByteSize) ∧
    (policy.maxLength < formula.utf8ByteSize →
      parse policy formula = .error (.limit (.length formula.utf8ByteSize policy.maxLength))) ∧
    (formula.utf8ByteSize ≤ policy.maxLength →
      (parse policy formula = .error .empty ↔ Text.squeeze formula.toList = []) ∧
      (∀ e, Derives (Text.squeeze formula.toList) e →
        (∀ f, Derives (Text.squeeze formula.toList) f → f = e) ∧
        (e.depth ≤ policy.maxDepth → parse policy formula = .ok e) ∧
        (policy.maxDepth < e.depth → parse policy formula = .error (.limit (.depth policy.maxDepth)))) ∧
      (Text.squeeze formula.toList ≠ [] → (¬∃ e, Derives (Text.squeeze formula.toList) e) →
        (∃ t, parse policy formula = .error (.invalidExpression t)) ∨
          parse policy formula = .error (.limit (.depth policy.maxDepth)))) ∧
    (∀ e, parse policy formula = .ok e →
      Derives (Text.squeeze formula.toList) e ∧
      '"' ∉ formula.toList ∧ '\\' ∉ formula.toList ∧ Balanced formula.toList) := by
  refine ⟨⟨fun ⟨_, _, hp⟩ => long_of_parse hp, fun h => ⟨_, _, parse_of_long h⟩⟩, parse_of_long, fun h => ?_, ?_⟩
  · refine ⟨⟨blank_of_parse h, parse_of_blank h⟩, fun e he => ⟨fun f hf => hf.unique he, ?_, ?_⟩, fun hb hn => ?_⟩
    · intro hd
      rw [parse_of_derives h he, verdict, if_pos hd]
    · intro hd
      rw [parse_of_derives h he, verdict, if_neg (by omega)]
    · cases hp : parse policy formula with
      | ok e => exact absurd ⟨e, (parse_eq_ok_iff.1 hp).2.1⟩ hn
      | error error =>
        rcases refused_of_parse h hb hp with ⟨t, rfl⟩ | rfl
        · exact .inl ⟨t, rfl⟩
        · exact .inr rfl
  · intro e hp
    obtain ⟨-, he, -⟩ := parse_eq_ok_iff.1 hp
    refine ⟨he, fun hq => he.quote_not_mem ?_, fun hq => he.backslash_not_mem ?_, balanced_of_squeeze he.balanced⟩
    · exact (Text.mem_squeeze (by decide)).2 hq
    · exact (Text.mem_squeeze (by decide)).2 hq

end SeriesFormula.Formula
