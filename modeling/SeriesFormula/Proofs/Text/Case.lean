import SeriesFormula.Text.Case

/-!
# Texts in small and in capital letters

Small letters stay small (`lower_lower`), and a text without small letters is found again from its small form
(`upper_lower`). Two texts have the same letters iff their characters, written small, are the same (`sameLetters_eq`).
-/

namespace SeriesFormula.Text

theorem toLower_toLower (c : Char) : c.toLower.toLower = c.toLower := by
  by_cases hcapital : 'A'.val ≤ c.val ∧ c.val ≤ 'Z'.val
  · have hsmall : c.toLower.val = c.val + ('a'.val - 'A'.val) := congrArg Char.val (dif_pos hcapital)
    -- a small letter stands behind all capital ones
    have hbehind : ¬('A'.val ≤ c.toLower.val ∧ c.toLower.val ≤ 'Z'.val) := by
      rw [hsmall]
      grind
    exact dif_neg hbehind
  · have hsame : c.toLower = c := dif_neg hcapital
    rw [hsame, hsame]

/-- Small letters stay small. -/
@[simp]
theorem lower_lower (s : String) : lower (lower s) = lower s := by
  have hchar : Char.toLower ∘ Char.toLower = Char.toLower := funext toLower_toLower
  rw [lower, lower, String.map_map, hchar]

/-- The text with `a` to `z` written as capitals. -/
def upper (s : String) : String := s.map Char.toUpper

theorem toList_upper (s : String) : (upper s).toList = s.toList.map Char.toUpper := String.toList_map

theorem toUpper_toLower {c : Char} (h : c.toUpper = c) : c.toLower.toUpper = c := by
  by_cases hcapital : 'A'.val ≤ c.val ∧ c.val ≤ 'Z'.val
  · have hsmall : c.toLower.val = c.val + ('a'.val - 'A'.val) := congrArg Char.val (dif_pos hcapital)
    have hbetween : 'a'.val ≤ c.toLower.val ∧ c.toLower.val ≤ 'z'.val := by
      rw [hsmall]
      grind
    have hback : c.toLower.toUpper.val = c.toLower.val + ('A'.val - 'a'.val) := by
      delta Char.toUpper
      rw [dif_pos hbetween]
    rw [← Char.val_inj, hback, hsmall]
    grind
  · have hsame : c.toLower = c := dif_neg hcapital
    rw [hsame, h]

/-- What holds no small letters is found again from its small form. -/
theorem upper_lower {s : String} (h : ∀ c ∈ s.toList, c.toUpper = c) : upper (lower s) = s := by
  rw [← String.toList_inj, toList_upper, lower, String.toList_map, List.map_map]
  exact (List.map_congr_left fun c hc => toUpper_toLower (h c hc)).trans (List.map_id _)

/-- Texts have the same letters iff their characters, written small, are the same. -/
theorem sameLetters_eq (s t : String) :
    sameLetters s t = decide (s.toList.map Char.toLower = t.toList.map Char.toLower) := by
  rw [sameLetters, lower, lower, Bool.eq_iff_iff, beq_iff_eq, decide_eq_true_iff, ← String.toList_inj,
    String.toList_map, String.toList_map]

end SeriesFormula.Text
