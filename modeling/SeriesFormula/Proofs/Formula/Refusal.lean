import Mathlib.Data.String.Basic
import SeriesFormula.Proofs.Formula.Reading

/-!
# Refused fragments

What is reported of a text that is no formula. `Reaches policy cs depth piece` says that the reader comes from the text
`cs` down to a piece of it: through `depth` calls inside of each other, in each of which it has read all arguments in
front.

- each piece that the reader comes to stands in the text as it is (`Reaches.isInfix`);
- the fragment that is reported is such a piece, and it has not the shape of a call (`exists_reaches_fragment`);
- so it is refused again when it is read alone (`fragment_minimal`).
-/

namespace SeriesFormula.Formula

variable {policy : Policy} {cs : List Char}

/-! ## The way to a piece -/

/-- The text is a name with parentheses behind it, and `inner` stands between those. -/
def HasCallShape (cs name inner : List Char) : Prop :=
  name ≠ [] ∧ (∀ c ∈ name, isNameChar c) ∧ cs = name ++ '(' :: inner ++ [')']

theorem HasCallShape.isInfix {name inner : List Char} (h : HasCallShape cs name inner) : inner <:+: cs :=
  ⟨name ++ ['('], [')'], by rw [h.2.2, List.append_assoc name, List.singleton_append]⟩

/-- The reader of the text comes to a piece inside of `depth` calls. -/
inductive Reaches (policy : Policy) (cs : List Char) : Nat → List Char → Prop
  | whole : Reaches policy cs 0 cs
  /-- An argument of a call that is not too deep, behind arguments that are read. -/
  | argument {depth : Nat} {piece name inner arg : List Char} {before after : List (List Char)} :
      Reaches policy cs depth piece → HasCallShape piece name inner → depth < policy.maxDepth →
      splitArguments inner = before ++ arg :: after → (∀ b ∈ before, ∃ e, parseNode policy (depth + 1) b = .ok e) →
      Reaches policy cs (depth + 1) arg

/-- **Each piece stands in the text as it is.** -/
theorem Reaches.isInfix {depth : Nat} {piece : List Char} (h : Reaches policy cs depth piece) : piece <:+: cs := by
  induction h with
  | whole => exact List.infix_rfl
  | argument _ hshape _ hsplit _ ih =>
    have hmem : _ ∈ splitArguments _ := hsplit ▸ List.mem_append_right _ List.mem_cons_self
    exact (isInfix_of_mem_splitArguments hmem).trans (hshape.isInfix.trans ih)

/-- A leaf is reported as it is. -/
theorem fragment_of_parseLeaf {t : String} (h : parseLeaf cs = .error (.invalidExpression t)) : t = String.ofList cs := by
  unfold parseLeaf at h
  split at h
  · cases h
  · split at h <;> cases h
    rfl

/-- The fragment that is reported is a piece that the reader comes to, and a leaf. -/
theorem exists_reaches_fragment {t : String} {piece : List Char} : ∀ {depth : Nat}, Reaches policy cs depth piece →
    parseNode policy depth piece = .error (.invalidExpression t) →
    ∃ depth', Reaches policy cs depth' t.toList ∧ splitCall t.toList = none ∧
      parseLeaf t.toList = .error (.invalidExpression t) := by
  induction piece using text_induction with
  | leaf piece hcall =>
    intro depth hreach h
    rw [parseNode_of_leaf hcall] at h
    obtain rfl : t = String.ofList piece := fragment_of_parseLeaf h
    rw [String.toList_ofList]
    exact ⟨depth, hreach, hcall, h⟩
  | call piece name inner hcall ih =>
    intro depth hreach h
    rw [parseNode_of_call hcall] at h
    split at h
    · cases h
    · rename_i hdepth
      cases hargs : (splitArguments inner).mapM (parseNode policy (depth + 1)) with
      | ok args => rw [hargs] at h; cases h
      | error error =>
        rw [hargs] at h
        cases h
        -- the first argument that is not read is where the reader stops
        obtain ⟨before, arg, after, hsplit, hbefore, harg⟩ := mapM_eq_error_iff.1 hargs
        have hmem : arg ∈ splitArguments inner := hsplit ▸ List.mem_append_right _ List.mem_cons_self
        exact ih arg hmem (.argument hreach (splitCall_eq_some_iff.1 hcall) (Nat.lt_of_not_le hdepth) hsplit hbefore)
          harg

/-! ## Whole formulas -/

/-- A piece of a formula that is short enough is so too. -/
theorem utf8ByteSize_le_of_isInfix {formula t : String} (h : t.toList <:+: Text.squeeze formula.toList) :
    t.utf8ByteSize ≤ formula.utf8ByteSize := by
  rw [← String.utf8Len_toList, ← String.utf8Len_toList]
  exact String.utf8Len_le_of_sublist (h.sublist.trans List.filter_sublist)

section Alone

variable {formula t : String} (hlen : formula.utf8ByteSize ≤ policy.maxLength)
  (hwithin : t.toList <:+: Text.squeeze formula.toList)
include hlen hwithin

/-- A piece of a formula is read alone like by the reader of the formula. -/
theorem parse_of_isInfix (hne : t.toList ≠ []) : parse policy t = parseNode policy 0 t.toList := by
  have hsolid : Text.Solid t.toList := fun c hc => Text.solid_squeeze _ c (hwithin.subset hc)
  have hsqueeze := Text.squeeze_of_solid hsolid
  rw [parse_of_text ((utf8ByteSize_le_of_isInfix hwithin).trans hlen) (hsqueeze.symm ▸ hne), hsqueeze]

/-- A piece that is read inside of calls is read alone. -/
theorem parse_of_parseNode {depth : Nat} {e : Expr Float} (h : parseNode policy depth t.toList = .ok e)
    (hdepth : depth ≤ policy.maxDepth) : parse policy t = .ok e := by
  have hsolid : Text.Solid t.toList := fun c hc => Text.solid_squeeze _ c (hwithin.subset hc)
  have he := derives_of_parseNode hsolid h
  rw [he.parseNode_eq hdepth, verdict] at h
  split at h
  · rw [parse_of_isInfix hlen hwithin he.ne_nil, he.parseNode_eq (Nat.zero_le _), verdict, if_pos (by omega)]
  · cases h

end Alone

/-- A fragment is reported only of a formula that is short enough and not blank. -/
theorem parseNode_of_invalidExpression {formula t : String}
    (h : parse policy formula = .error (.invalidExpression t)) : formula.utf8ByteSize ≤ policy.maxLength ∧
      parseNode policy 0 (Text.squeeze formula.toList) = .error (.invalidExpression t) := by
  by_cases hlen : formula.utf8ByteSize ≤ policy.maxLength
  · by_cases hb : Text.squeeze formula.toList = []
    · rw [parse_of_blank hlen hb] at h
      cases h
    · rw [parse_of_text hlen hb] at h
      exact ⟨hlen, h⟩
  · rw [parse_of_long (Nat.lt_of_not_le hlen)] at h
    cases h

/-- **A fragment that is reported is verbatim and minimal.** It stands in the formula without its blanks as it is, and
read alone it is reported itself, or as an empty formula if it is empty. If it is all of the formula, that has not the
shape of a call. Otherwise it is a whole argument of a call that the reader comes to, and all arguments in front of it
are read, there and alone. -/
theorem fragment_minimal {formula t : String} (h : parse policy formula = .error (.invalidExpression t)) :
    t.toList <:+: Text.squeeze formula.toList ∧
    (t ≠ "" → parse policy t = .error (.invalidExpression t)) ∧
    (t = "" → parse policy t = .error .empty) ∧
    (t.toList = Text.squeeze formula.toList → ∀ name inner, ¬HasCallShape t.toList name inner) ∧
    (t.toList ≠ Text.squeeze formula.toList →
      ∃ depth piece name inner before after, Reaches policy (Text.squeeze formula.toList) depth piece ∧
        HasCallShape piece name inner ∧ splitArguments inner = before ++ t.toList :: after ∧
        ∀ b ∈ before, ∃ e, parseNode policy (depth + 1) b = .ok e ∧ parse policy (String.ofList b) = .ok e) := by
  obtain ⟨hlen, hnode⟩ := parseNode_of_invalidExpression h
  obtain ⟨depth, hreach, hcall, hleaf⟩ := exists_reaches_fragment .whole hnode
  have hwithin := hreach.isInfix
  refine ⟨hwithin, fun hne => ?_, ?_, fun _ name inner hshape => ?_, fun hne => ?_⟩
  · rw [parse_of_isInfix hlen hwithin (mt String.toList_eq_nil_iff.1 hne), parseNode_of_leaf hcall, hleaf]
  · rintro rfl
    exact parse_of_blank (Nat.zero_le _) rfl
  · rw [splitCall_eq_some_iff.2 hshape] at hcall
    cases hcall
  · generalize hpiece : t.toList = piece at hreach
    cases hreach with
    | whole => exact absurd hpiece hne
    | @argument depth piece name inner arg before after hreach hshape hdepth hsplit hbefore =>
      refine ⟨depth, piece, name, inner, before, after, hreach, hshape, hsplit, fun b hb => ?_⟩
      obtain ⟨e, he⟩ := hbefore b hb
      have hmem : b ∈ splitArguments inner := hsplit ▸ List.mem_append_left _ hb
      have hb : (String.ofList b).toList <:+: Text.squeeze formula.toList := by
        rw [String.toList_ofList]
        exact (isInfix_of_mem_splitArguments hmem).trans (hshape.isInfix.trans hreach.isInfix)
      exact ⟨e, he, parse_of_parseNode hlen hb (String.toList_ofList ▸ he) hdepth⟩

/-- The fragment is behind an argument that is read, inside of two calls; the arguments behind it are not looked at. -/
theorem fragment_minimal_nested :
    let policy : Policy := ⟨2, 60⟩
    let formula := " ROC( MA( SUM_1, \"é, 2\" ), #)"
    let t := "\"é,2\""
    parse policy formula = .error (.invalidExpression t) ∧
      t.toList <:+: Text.squeeze formula.toList ∧
      (t ≠ "" → parse policy t = .error (.invalidExpression t)) ∧
      (t = "" → parse policy t = .error .empty) ∧
      (t.toList = Text.squeeze formula.toList → ∀ name inner, ¬HasCallShape t.toList name inner) ∧
      (t.toList ≠ Text.squeeze formula.toList →
        ∃ depth piece name inner before after, Reaches policy (Text.squeeze formula.toList) depth piece ∧
          HasCallShape piece name inner ∧ splitArguments inner = before ++ t.toList :: after ∧
          ∀ b ∈ before, ∃ e, parseNode policy (depth + 1) b = .ok e ∧ parse policy (String.ofList b) = .ok e) := by
  have hread : parse ⟨2, 60⟩ " ROC( MA( SUM_1, \"é, 2\" ), #)" = .error (.invalidExpression "\"é,2\"") := by
    with_unfolding_all rfl
  exact ⟨hread, fragment_minimal hread⟩

end SeriesFormula.Formula
