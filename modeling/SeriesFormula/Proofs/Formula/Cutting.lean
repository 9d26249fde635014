import SeriesFormula.Proofs.Formula.Grammar

/-!
# Cutting arguments

What the search for commas makes of a text, and of a call's text around it.

- nothing is lost: the pieces with commas between them are the text again, whatever it is
  (`intercalate_splitArguments`);
- the search passes over a formula without a cut and comes out as it went in, at every depth from zero on
  (`Derives.passes`); so the arguments of a call are cut at their own commas (`splitArguments_last`,
  `splitArguments_more`);
- a text looks like a call iff it is a name with parentheses behind it (`splitCall_eq_some_iff`).
-/

namespace SeriesFormula.Formula

/-! ## Nothing is lost -/

theorem eq_comma_of_cuts {st : CutState} {c : Char} (h : st.cuts c = true) : c = ',' := by
  simp only [CutState.cuts, Bool.and_eq_true, decide_eq_true_eq] at h
  exact h.1.1

/-- The pieces with commas between them are the text. -/
theorem intercalate_cutPieces (st : CutState) (cs : List Char) :
    List.intercalate [','] ((cutPieces st cs).1 :: (cutPieces st cs).2) = cs := by
  induction cs generalizing st with
  | nil => simp [cutPieces]
  | cons c cs ih =>
    have ih := ih (st.after c)
    simp only [cutPieces]
    split
    · rename_i hc
      obtain rfl := eq_comma_of_cuts hc
      rw [List.intercalate_cons_cons, ih]
      rfl
    · cases hps : (cutPieces (st.after c) cs).2 with
      | nil =>
        rw [hps, List.intercalate_singleton] at ih
        rw [List.intercalate_singleton, ih]
      | cons p ps =>
        rw [hps, List.intercalate_cons_cons] at ih
        rw [List.intercalate_cons_cons, List.cons_append, List.cons_append, ih]

/-- The arguments with commas between them are the text between the parentheses. -/
theorem intercalate_splitArguments (cs : List Char) : List.intercalate [','] (splitArguments cs) = cs := by
  unfold splitArguments
  split
  · rename_i h; rw [List.isEmpty_iff.1 h]; rfl
  · exact intercalate_cutPieces .start cs

theorem isInfix_intercalate {piece : List Char} : ∀ {pieces : List (List Char)}, piece ∈ pieces →
    piece <:+: List.intercalate [','] pieces
  | [p], hp => by
    obtain rfl := List.mem_singleton.1 hp
    simp
  | p :: q :: ps, hp => by
    rw [List.intercalate_cons_cons, List.append_assoc]
    rcases List.mem_cons.1 hp with rfl | hp
    · exact (List.prefix_append _ _).isInfix
    · refine (isInfix_intercalate hp).trans ?_
      exact ((List.suffix_append _ _).trans (List.suffix_append _ _)).isInfix

/-- An argument stands in the text that it is cut from as it is. -/
theorem isInfix_of_mem_splitArguments {cs piece : List Char} (h : piece ∈ splitArguments cs) : piece <:+: cs := by
  have hwithin := isInfix_intercalate h
  rwa [intercalate_splitArguments] at hwithin

/-! ## Passing over a text -/

/-- From the first state, the search goes through the text without a cut and comes to the second. -/
def Passes (st : CutState) (cs : List Char) (st' : CutState) : Prop :=
  ∀ rest, cutPieces st (cs ++ rest) = (cs ++ (cutPieces st' rest).1, (cutPieces st' rest).2)

theorem Passes.nil (st : CutState) : Passes st [] st := fun _ => rfl

theorem Passes.append {st st' st'' : CutState} {cs ds : List Char} (h : Passes st cs st') (h' : Passes st' ds st'') :
    Passes st (cs ++ ds) st'' := by
  intro rest
  rw [List.append_assoc, h, h', List.append_assoc]

theorem Passes.char {st : CutState} {c : Char} (h : st.cuts c = false) : Passes st [c] (st.after c) := by
  intro rest
  simp [cutPieces, h]

/-- The state outside of quotes, at a depth of parentheses. -/
def CutState.at (depth : Int) : CutState := ⟨depth, false, false⟩

/-- The search for commas does not depend on the character. -/
def IsPlain (c : Char) : Prop := c ≠ ',' ∧ c ≠ '(' ∧ c ≠ ')' ∧ c ≠ '"' ∧ c ≠ '\\'

theorem isPlain_of_isWordChar {c : Char} (h : isWordChar c) : IsPlain c := by
  refine ⟨?_, ?_, ?_, ?_, ?_⟩ <;> rintro rfl <;> exact absurd h (by decide)

/-- Plain characters change nothing. -/
theorem passes_of_isPlain (depth : Int) {cs : List Char} (h : ∀ c ∈ cs, IsPlain c) :
    Passes (.at depth) cs (.at depth) := by
  induction cs with
  | nil => exact .nil _
  | cons c cs ih =>
    have hne := h c List.mem_cons_self
    unfold IsPlain at hne
    have hstep : Passes (.at depth) [c] ((CutState.at depth).after c) := .char (by simp [CutState.cuts, hne])
    rw [show (CutState.at depth).after c = .at depth by simp [CutState.after, CutState.at, hne]] at hstep
    exact hstep.append (ih fun d hd => h d (List.mem_cons_of_mem c hd))

/-- Word characters change nothing. -/
theorem passes_of_isWordChar (depth : Int) {cs : List Char} (h : ∀ c ∈ cs, isWordChar c) :
    Passes (.at depth) cs (.at depth) := passes_of_isPlain depth fun c hc => isPlain_of_isWordChar (h c hc)

/-- A text in parentheses is passed over one deeper. -/
theorem passes_parens {depth : Int} {cs : List Char} (h : Passes (.at (depth + 1)) cs (.at (depth + 1))) :
    Passes (.at depth) ('(' :: cs ++ [')']) (.at depth) := by
  have hopen : Passes (.at depth) ['('] (.at (depth + 1)) := .char (by simp [CutState.cuts])
  have hclose : Passes (.at (depth + 1)) [')'] (.at depth) := by
    have hc : Passes (.at (depth + 1)) [')'] ((CutState.at (depth + 1)).after ')') := .char (by simp [CutState.cuts])
    rwa [show (CutState.at (depth + 1)).after ')' = .at depth by simp [CutState.after, CutState.at]] at hc
  exact hopen.append (h.append hclose)

/-- A comma between parentheses is passed over. -/
theorem passes_comma {depth : Int} (h : depth ≠ 0) : Passes (.at depth) [','] (.at depth) :=
  .char (by simp [CutState.cuts, CutState.at, h])

mutual

/-- **The search for commas passes over a formula**, at every depth from zero on. -/
theorem Derives.passes : ∀ {cs : List Char} {e : Expr Float}, Derives cs e → ∀ {depth : Int}, 0 ≤ depth →
    Passes (.at depth) cs (.at depth)
  | _, _, .call _ hname hargs, depth, h => by
    rw [List.append_assoc]
    exact (passes_of_isWordChar depth fun c hc => isWordChar_of_isNameChar (hname c hc)).append
      (passes_parens (hargs.passes (by omega)))
  | _, _, .identifier hc hcs, depth, _ =>
    passes_of_isWordChar depth (isWordChar_of_identifier (isNameChar_or_isDigit hc hcs))
  | _, _, .number hl _, depth, _ => passes_of_isWordChar depth (isWordChar_of_spells hl)

theorem DerivesArguments.passes : ∀ {cs : List Char} {es : List (Expr Float)}, DerivesArguments cs es →
    ∀ {depth : Int}, 1 ≤ depth → Passes (.at depth) cs (.at depth)
  | _, _, .none, _, _ => .nil _
  | _, _, .last he, _, h => he.passes (by omega)
  | _, _, .more he hes, _, h =>
    (he.passes (by omega)).append ((passes_comma (by omega)).append (hes.passes h))

end

/-! ## The pieces of arguments -/

theorem splitArguments_of_ne_nil {cs : List Char} (h : cs ≠ []) :
    splitArguments cs = (cutPieces .start cs).1 :: (cutPieces .start cs).2 := by
  unfold splitArguments
  rw [if_neg (by simpa using h)]

/-- A text that is passed over is cut into nothing but itself. -/
theorem splitArguments_of_passes {cs : List Char} (hne : cs ≠ []) (h : Passes (.at 0) cs (.at 0)) :
    splitArguments cs = [cs] := by
  have hpass : cutPieces .start (cs ++ []) = (cs ++ [], []) := h []
  rw [List.append_nil] at hpass
  rw [splitArguments_of_ne_nil hne, hpass]

/-- The comma behind a text that is passed over is the first cut. -/
theorem splitArguments_append {cs ds : List Char} (h : Passes (.at 0) cs (.at 0)) (hds : ds ≠ []) :
    splitArguments (cs ++ ',' :: ds) = cs :: splitArguments ds := by
  have hcut : cutPieces .start (',' :: ds) = ([], splitArguments ds) := by
    rw [splitArguments_of_ne_nil hds]
    rfl
  have hpass : cutPieces .start (cs ++ ',' :: ds) =
      (cs ++ (cutPieces .start (',' :: ds)).1, (cutPieces .start (',' :: ds)).2) := h (',' :: ds)
  rw [splitArguments_of_ne_nil (by simp), hpass, hcut, List.append_nil]

/-- A formula is cut into nothing but itself. -/
theorem splitArguments_last {cs : List Char} {e : Expr Float} (h : Derives cs e) : splitArguments cs = [cs] :=
  splitArguments_of_passes h.ne_nil (h.passes (Int.le_refl 0))

/-- The comma behind a formula is the first cut. -/
theorem splitArguments_more {cs ds : List Char} {e : Expr Float} (h : Derives cs e) (hds : ds ≠ []) :
    splitArguments (cs ++ ',' :: ds) = cs :: splitArguments ds :=
  splitArguments_append (h.passes (Int.le_refl 0)) hds

theorem DerivesArguments.ne_nil {cs : List Char} {e : Expr Float} {es : List (Expr Float)}
    (h : DerivesArguments cs (e :: es)) : cs ≠ [] := by
  cases h with
  | last he => exact he.ne_nil
  | more he hes => simp

/-! ## The shape of a call -/

/-- A name ends at the first parenthesis. -/
theorem splitCall_of_name {name inner : List Char} (hne : name ≠ []) (hname : ∀ c ∈ name, isNameChar c) :
    splitCall (name ++ '(' :: inner ++ [')']) = some (name, inner) := by
  have hopen : isNameChar '(' = false := by decide
  unfold splitCall
  rw [List.append_assoc, List.takeWhile_append_of_pos hname, List.dropWhile_append_of_pos hname]
  simp [hopen, hne]

/-- **A text looks like a call iff it is a name with parentheses behind it.** -/
theorem splitCall_eq_some_iff {cs name inner : List Char} : splitCall cs = some (name, inner) ↔
    name ≠ [] ∧ (∀ c ∈ name, isNameChar c) ∧ cs = name ++ '(' :: inner ++ [')'] := by
  constructor
  · intro h
    unfold splitCall at h
    split at h
    · rename_i tail htail
      rw [Option.ite_none_right_eq_some] at h
      obtain ⟨⟨hne, hlast⟩, h⟩ := h
      obtain ⟨inner, rfl⟩ := List.getLast?_eq_some_iff.1 hlast
      cases h
      refine ⟨hne, List.all_eq_true.1 List.all_takeWhile, ?_⟩
      rw [List.dropLast_concat, List.append_assoc, List.cons_append, ← htail, List.takeWhile_append_dropWhile]
    · cases h
  · rintro ⟨hne, hname, rfl⟩
    exact splitCall_of_name hne hname

/-- A text without an opening parenthesis does not look like a call. -/
theorem splitCall_eq_none_of_not_mem {cs : List Char} (h : '(' ∉ cs) : splitCall cs = none := by
  cases hs : splitCall cs with
  | none => rfl
  | some call =>
    obtain ⟨-, -, rfl⟩ := splitCall_eq_some_iff.1 hs
    exact absurd (by simp) h

/-- Word characters alone do not look like a call. -/
theorem splitCall_eq_none_of_isWordChar {cs : List Char} (h : ∀ c ∈ cs, isWordChar c) : splitCall cs = none :=
  splitCall_eq_none_of_not_mem fun hc => absurd (h _ hc) (by decide)

end SeriesFormula.Formula
