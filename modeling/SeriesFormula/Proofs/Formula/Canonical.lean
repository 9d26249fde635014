import SeriesFormula.Proofs.Decimal.ReadBack
import SeriesFormula.Proofs.Formula.Reading

/-!
# Canonical forms

The canonical form of a tree follows the grammar, so that a tree with a derivation is derived from its canonical form
too (`Derives.chars`). That the form is then cut at the same commas and each leaf read as what it was is what
completeness says of every derivation: a formula is read again from its canonical form (`parse_text`).
-/

namespace SeriesFormula.Formula

/-- A float of finite value is a number in its written form. -/
theorem derives_number {x : Float} (hx : Decimal.isFinite x) : Derives (Number.text x).toList (.literal x) := by
  obtain ⟨l, hl, rfl⟩ := Decimal.exists_spells_chars hx
  have htext : (Number.text l.value).toList = Decimal.plain.chars l.value := String.toList_ofList
  rw [htext]
  exact .number hl hx

mutual

/-- A tree is derived from its canonical form. -/
theorem Derives.chars : ∀ {cs : List Char} {e : Expr Float}, Derives cs e → Derives e.chars e
  | _, _, .call hne hname hargs => by
    rw [Expr.chars, String.toList_ofList]
    exact .call hne hname hargs.chars
  | _, _, .identifier hc hcs => by
    rw [Expr.chars, String.toList_ofList]
    exact .identifier hc hcs
  | _, _, .number _ hx => derives_number hx

theorem DerivesArguments.chars : ∀ {cs : List Char} {es : List (Expr Float)}, DerivesArguments cs es →
    DerivesArguments (Expr.charsOfList es) es
  | _, _, .none => .none
  | _, _, .last he => .last he.chars
  | _, _, .more he hes => .more he.chars hes.chars

end

/-- **A formula is read again from its canonical form**, unless that is too long for the policy. -/
theorem parse_text {policy : Policy} {formula : String} {e : Expr Float} (h : parse policy formula = .ok e)
    (hlen : e.text.utf8ByteSize ≤ policy.maxLength) : parse policy e.text = .ok e := by
  obtain ⟨-, he, hd⟩ := parse_eq_ok_iff.1 h
  have hsqueeze : Text.squeeze e.text.toList = e.chars := by
    rw [Expr.text, String.toList_ofList, Text.squeeze_of_solid he.chars.solid]
  refine parse_eq_ok_iff.2 ⟨hlen, ?_, hd⟩
  rw [hsqueeze]
  exact he.chars

/-- Calls inside of each other, with blanks, an exponent and a negative zero. -/
theorem parse_text_nested :
    ∃ e, parse ⟨2, 40⟩ " ROC( MA(GDP_Q1, 0.3e1), -0 )" = .ok e ∧ e.text = "ROC(MA(GDP_Q1,3),-0)" ∧
      e.text.utf8ByteSize ≤ 40 ∧ parse ⟨2, 40⟩ e.text = .ok e := by
  let e : Expr Float := .call "ROC" [.call "MA" [.identifier "GDP_Q1", .literal 3], .literal (-0.0)]
  have hread : parse ⟨2, 40⟩ " ROC( MA(GDP_Q1, 0.3e1), -0 )" = .ok e := by with_unfolding_all rfl
  have htext : e.text = "ROC(MA(GDP_Q1,3),-0)" := rfl
  have hlen : e.text.utf8ByteSize ≤ 40 := by
    rw [htext]
    decide
  exact ⟨e, hread, htext, hlen, parse_text hread hlen⟩

end SeriesFormula.Formula
