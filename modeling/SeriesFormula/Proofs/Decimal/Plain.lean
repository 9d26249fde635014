import SeriesFormula.Proofs.Decimal.Order
import SeriesFormula.Proofs.Decimal.ReadBack
import SeriesFormula.Proofs.Decimal.Whole

/-!
# Floats in plain digits

What formulas, messages and ledgers show of a float.

- no two floats are shown alike (`chars_injective`): a finite one is read back, the infinities and what is no number
  hold letters that no literal has; and none is shown on two lines (`newline_not_mem_chars`);
- a whole number below `2^53` is shown by its digits (`chars_of_natural`). The shortest decimal could be another one that
  reads back, with zeros for the last digits; but on the grids that the search comes to up to that of the whole numbers
  all decimals are whole numbers, and no other one reads back as this one (`eq_of_nearest_eq`).
-/

namespace SeriesFormula.Decimal

/-- The parts of a float make it up; so there is one float that is no number. -/
theorem eq_of_unpack_eq {x y : Float} (h : x.toModel.unpack = y.toModel.unpack) : x = y := by
  have hparts : ∀ z : Float, Float.ofModel (.pack z.toModel.unpack) = z := ofBits_toBits
  rw [← hparts x, h, hparts]

theorem eq_of_nan {x y : Float} (hx : infinityBits < magnitudeBits x) (hy : infinityBits < magnitudeBits y) :
    x = y := by
  have hunpack : ∀ z : Float, infinityBits < magnitudeBits z → z.toModel.unpack = .notANumber := by
    intro z hz
    have h := unpacks z
    generalize z.toModel.unpack = u at h
    cases h with
    | nan h => rfl
    | infinite h => omega
    | zero h => omega
    | finite hm h ha => omega
  exact eq_of_unpack_eq ((hunpack x hx).trans (hunpack y hy).symm)

/-! ## Infinities and what is no number -/

section Special

variable {x y : Float}

/-- How a float that is not finite is shown. -/
theorem chars_of_not_isFinite (h : ¬isFinite x) :
    magnitudeBits x = infinityBits ∧ plain.chars x = (if isNegative x then ['-'] else []) ++ ['i', 'n', 'f'] ∨
      infinityBits < magnitudeBits x ∧ plain.chars x = ['N', 'a', 'N'] := by
  have hge : infinityBits ≤ magnitudeBits x := by simpa [isFinite] using h
  rcases hge.eq_or_lt with heq | hlt
  · refine .inl ⟨heq.symm, ?_⟩
    rw [Layout.chars, content, if_neg (by omega), if_pos heq.symm]
  · refine .inr ⟨hlt, ?_⟩
    rw [Layout.chars, content, if_neg (by omega), if_neg (by omega)]

/-- The text of a float that is not finite holds an `n` or an `N`, so that it is no literal. -/
theorem isFinite_of_spells {l : Literal} (h : Spells (plain.chars x) l) : isFinite x := by
  by_contra hx
  obtain ⟨c, hc, hletter⟩ : ∃ c ∈ plain.chars x, isLiteralChar c = false := by
    rcases chars_of_not_isFinite hx with ⟨-, hchars⟩ | ⟨-, hchars⟩
    · exact ⟨'n', by simp [hchars], rfl⟩
    · exact ⟨'N', by simp [hchars], rfl⟩
  rw [h.isLiteralChar c hc] at hletter
  cases hletter

/-- The infinities differ by the sign, and what is no number is one float. -/
theorem eq_of_chars_eq_of_not_isFinite (hx : ¬isFinite x) (hy : ¬isFinite y) (h : plain.chars x = plain.chars y) :
    x = y := by
  have hinf : ∀ negative : Bool, (if negative then ['-'] else []) ++ ['i', 'n', 'f'] ≠ ['N', 'a', 'N'] := by decide
  rcases chars_of_not_isFinite hx with ⟨hbits, hchars⟩ | ⟨hbits, hchars⟩ <;>
    rcases chars_of_not_isFinite hy with ⟨hbits', hchars'⟩ | ⟨hbits', hchars'⟩ <;>
    rw [hchars, hchars'] at h
  · have hsign : isNegative x = isNegative y := by
      rw [List.append_left_inj] at h
      cases hn : isNegative x <;> cases hn' : isNegative y <;> rw [hn, hn'] at h <;> first | rfl | cases h
    rw [← compose_isNegative_magnitudeBits x, ← compose_isNegative_magnitudeBits y, hsign, hbits, hbits']
  · exact absurd h (hinf _)
  · exact absurd h.symm (hinf _)
  · exact eq_of_nan hbits hbits'

end Special

/-- **No two floats are shown alike.** -/
theorem chars_injective : Function.Injective plain.chars := by
  intro x y h
  by_cases hx : isFinite x
  · obtain ⟨l, hl, rfl⟩ := exists_spells_chars hx
    have hl' : Spells (plain.chars y) l := h ▸ hl
    obtain ⟨m, hm, rfl⟩ := exists_spells_chars (isFinite_of_spells hl')
    rw [← literal?_eq_some_iff] at hl' hm
    rw [Option.some.inj (hl'.symm.trans hm)]
  · refine eq_of_chars_eq_of_not_isFinite hx (fun hy => hx ?_) h
    obtain ⟨m, hm, -⟩ := exists_spells_chars hy
    exact isFinite_of_spells (h ▸ hm)

/-- A float is shown on one line. -/
theorem newline_not_mem_chars (x : Float) : '\n' ∉ plain.chars x := by
  by_cases hx : isFinite x
  · obtain ⟨l, hl, -⟩ := exists_spells_chars hx
    exact fun hmem => absurd (hl.isLiteralChar _ hmem) (by decide)
  · rcases chars_of_not_isFinite hx with ⟨-, hchars⟩ | ⟨-, hchars⟩ <;> rw [hchars]
    · cases isNegative x <;> decide
    · decide

/-! ## Whole numbers -/

/-- Zeros behind a number. -/
theorem naturalDigits_mul_pow {c : ℕ} (hc : 0 < c) (k : ℕ) :
    naturalDigits (c * 10 ^ k) = naturalDigits c ++ List.replicate k '0' := by
  induction k with
  | zero => rw [pow_zero, mul_one, List.replicate_zero, List.append_nil]
  | succ k ih =>
    have hlast := Nat.toDigits_append_toDigits (b := 10) (n := c * 10 ^ k) (d := 0) (by decide) (by positivity)
      (by decide)
    rw [List.replicate_succ', ← List.append_assoc, ← ih, pow_succ, ← mul_assoc, mul_comm _ 10]
    exact hlast.symm

/-- The place of the point of a whole number with at most 16 digits. -/
theorem pointPlace_bounds {n den : ℕ} (hpos : 0 < n) (hn : n < 10 ^ 16) :
    1 ≤ pointPlace (n * den) den ∧ pointPlace (n * den) den ≤ 17 := by
  have hlow : (Nat.toDigits 10 den).length ≤ (Nat.toDigits 10 (n * den)).length := by
    rw [Nat.length_toDigits_le_iff (by decide) Nat.length_toDigits_pos]
    refine (Nat.le_mul_of_pos_left den hpos).trans_lt ?_
    exact (Nat.length_toDigits_le_iff (by decide) Nat.length_toDigits_pos).1 le_rfl
  have hhigh : (Nat.toDigits 10 (n * den)).length ≤ 16 + (Nat.toDigits 10 den).length := by
    rw [Nat.length_toDigits_le_iff (by decide) (by omega), pow_add]
    refine Nat.mul_lt_mul'' hn ?_
    exact (Nat.length_toDigits_le_iff (by decide) Nat.length_toDigits_pos).1 le_rfl
  unfold pointPlace
  dsimp only
  generalize (Nat.toDigits 10 (n * den)).length = l at *
  generalize (Nat.toDigits 10 den).length = m at *
  split
  · omega
  · rename_i h
    refine ⟨?_, by omega⟩
    -- with as many digits as the denominator the number is at least one
    by_contra hlt
    have hguess : (l : ℤ) - m = 0 := by omega
    rw [hguess] at h
    refine h ?_
    change den * 10 ^ 0 ≤ n * den * 10 ^ 0
    rw [pow_zero, mul_one, mul_one]
    exact Nat.le_mul_of_pos_left den hpos

/-- A decimal that is found on a grid lies on it. -/
theorem exponent_of_onGrid {tie : Tie} {bits num den : ℕ} {e : ℤ} {d : Digits}
    (h : onGrid tie bits num den e = some d) : d.exponent = e := by
  unfold onGrid at h
  dsimp only at h
  split at h
  · cases h
  · cases h; rfl
  · cases h; rfl
  · split at h
    · cases h; rfl
    · split at h
      · cases h; rfl
      · split at h
        · cases h; rfl
        · cases h; split <;> rfl

/-- A whole number that reads back lies on the grid of the whole numbers. -/
theorem onGrid_zero (tie : Tie) {bits n den : ℕ} (hden : 0 < den) (h : nearest n 0 = bits) :
    onGrid tie bits (n * den) den 0 = some ⟨n, 0⟩ := by
  have hquotient : n * den * Nat.pow 10 (-(0 : ℤ)).toNat / (den * Nat.pow 10 (0 : ℤ).toNat) = n := by
    change n * den * 1 / (den * 1) = n
    rw [mul_one, mul_one, Nat.mul_div_cancel n hden]
  have hrest : n * den * Nat.pow 10 (-(0 : ℤ)).toNat % (den * Nat.pow 10 (0 : ℤ).toNat) = 0 := by
    change n * den * 1 % (den * 1) = 0
    rw [mul_one, mul_one, Nat.mul_mod_left]
  have hbits : (Digits.bits ⟨n, 0⟩ == bits) = true := beq_iff_eq.2 h
  unfold onGrid
  dsimp only
  rw [hquotient, hrest, hbits]
  cases (Digits.bits ⟨n + 1, 0⟩ == bits) with
  | false => rfl
  | true => exact if_pos (show 2 * 0 < den * 1 by omega)

/-- Zeros at the end that are dropped go to the exponent. -/
theorem exponent_le_strip (d : Digits) (fuel : ℕ) : d.exponent ≤ (d.strip fuel).exponent := by
  induction fuel generalizing d with
  | zero => exact le_rfl
  | succ fuel ih =>
    unfold Digits.strip
    split
    · exact (Int.le_add_one le_rfl).trans (ih ⟨d.coefficient / 10, d.exponent + 1⟩)
    · exact le_rfl

/-- Whole numbers up to `2^53` are magnitudes. -/
theorem exists_patternValue_natural {m : ℕ} (hm : m ≤ 2 ^ 53) : ∃ bits ≤ infinityBits, patternValue bits = m := by
  obtain ⟨bits, hbits⟩ : ∃ bits, patternValue bits = m := by
    rcases hm.lt_or_eq with hlt | rfl
    · obtain ⟨bits, hbits⟩ := exists_patternValue hlt (show leastExponent ≤ 0 by decide)
      exact ⟨bits, by rw [hbits, zpow_zero, mul_one]⟩
    · obtain ⟨bits, hbits⟩ := exists_patternValue (m := 2 ^ 52) (e := 1) (by norm_num) (by decide)
      exact ⟨bits, by rw [hbits]; norm_num⟩
  refine ⟨bits, ?_, hbits⟩
  have hinfinity : Scaled.ofBits infinityBits = ⟨2 ^ 52, 972⟩ := by decide
  have hle : patternValue bits ≤ patternValue infinityBits := by
    rw [hbits, patternValue, hinfinity, Scaled.value]
    calc (m : ℚ) ≤ (2 ^ 53 : ℕ) := by exact_mod_cast hm
      _ = ((2 ^ 52 : ℕ) : ℚ) * 2 ^ (1 : ℤ) := by norm_num
      _ ≤ ((2 ^ 52 : ℕ) : ℚ) * 2 ^ (972 : ℤ) := by
        gcongr
        · exact one_le_two
        · decide
  exact patternValue_strictMono.le_iff_le.1 hle

/-- Whole numbers below `2^53` are not rounded, and no others are rounded to one of them. -/
theorem eq_of_nearest_eq {m n bits : ℕ} (hn : n < 2 ^ 53) (hbits : patternValue bits = n) (h : nearest m 0 = bits) :
    m = n := by
  have hnear := isNearest_nearest m 0
  rw [h, zpow_zero, mul_one] at hnear
  rcases Nat.lt_or_ge m (2 ^ 53) with hlt | hge
  · obtain ⟨exact', hle, hvalue⟩ := exists_patternValue_natural hlt.le
    have hsame : bits = exact' := hnear.unique (hvalue ▸ isNearest_patternValue hle)
    rw [hsame, hvalue] at hbits
    exact_mod_cast hbits
  · -- `2^53` would be nearer
    obtain ⟨top, hle, hvalue⟩ := exists_patternValue_natural (le_refl (2 ^ 53))
    have hne : top ≠ bits := by
      rintro rfl
      rw [hvalue] at hbits
      have : 2 ^ 53 = n := by exact_mod_cast hbits
      omega
    have hnearer := (hnear.2 top hle hne).1
    have hlow : (n : ℚ) < (2 ^ 53 : ℕ) := by exact_mod_cast hn
    have hhigh : ((2 ^ 53 : ℕ) : ℚ) ≤ m := by exact_mod_cast hge
    rw [hbits, hvalue, abs_of_nonpos (by linarith), abs_of_nonpos (by linarith)] at hnearer
    linarith

/-- What is found first on the grids up to that of the whole numbers has no digits behind the point. -/
theorem exists_findSome?_onGrid (tie : Tie) {bits n den : ℕ} (hden : 0 < den) (hpos : 0 < n) (hn : n < 10 ^ 16)
    (h : nearest n 0 = bits) :
    ∃ d, ((List.range 17).findSome? fun (k : ℕ) => onGrid tie bits (n * den) den (pointPlace (n * den) den - (k + 1))) =
      some d ∧ 0 ≤ d.exponent := by
  obtain ⟨hlow, hhigh⟩ : 1 ≤ pointPlace (n * den) den ∧ pointPlace (n * den) den ≤ 17 := pointPlace_bounds hpos hn
  generalize pointPlace (n * den) den = place at *
  obtain ⟨j, rfl⟩ : ∃ j : ℕ, place = j + 1 := ⟨(place - 1).toNat, by omega⟩
  have hsplit : List.range 17 = List.range (j + 1) ++ (List.range (16 - j)).map (j + 1 + ·) := by
    rw [← List.range_add]
    congr 1
    omega
  rw [hsplit, List.findSome?_append]
  cases hfound : (List.range (j + 1)).findSome? fun (k : ℕ) => onGrid tie bits (n * den) den (j + 1 - (k + 1)) with
  | none =>
    -- the grid of the whole numbers is the last of these
    have hlast := List.findSome?_eq_none_iff.1 hfound j (List.mem_range.2 (Nat.lt_succ_self j))
    rw [sub_self, onGrid_zero tie hden h] at hlast
    cases hlast
  | some d =>
    refine ⟨d, rfl, ?_⟩
    obtain ⟨k, hk, hd⟩ := List.exists_of_findSome?_eq_some hfound
    have hle := List.mem_range.1 hk
    rw [exponent_of_onGrid hd]
    omega

/-- The shortest decimal of a whole number below `2^53` is that number, with none of its digits behind the point. -/
theorem shortest_of_natural (tie : Tie) {bits n : ℕ} (hbits : patternValue bits = n) (hlt : bits < infinityBits)
    (hpos : 0 < n) (hn : n < 2 ^ 53) :
    0 ≤ (shortest tie bits).exponent ∧ (shortest tie bits).coefficient * 10 ^ (shortest tie bits).exponent.toNat = n := by
  have hbitspos : 0 < bits := by
    refine Nat.pos_of_ne_zero fun hzero => hpos.ne' ?_
    rw [hzero, patternValue_zero] at hbits
    exact_mod_cast hbits.symm
  have hread := bits_shortest tie hbitspos hlt
  have hexponent : 0 ≤ (shortest tie bits).exponent := by
    have hden := (Scaled.ofBits bits).den_pos
    have hnum : (Scaled.ofBits bits).num = n * (Scaled.ofBits bits).den := by
      have hfraction := (Scaled.ofBits bits).num_div_den
      rw [← Scaled.value, ← patternValue, hbits, div_eq_iff (by exact_mod_cast hden.ne')] at hfraction
      exact_mod_cast hfraction
    have hnearest : nearest n 0 = bits := by
      have hnear := isNearest_nearest n 0
      rw [zpow_zero, mul_one, ← hbits] at hnear
      exact hnear.unique (isNearest_patternValue hlt.le)
    obtain ⟨d, hd, hnonneg⟩ := exists_findSome?_onGrid tie hden hpos (by omega) hnearest
    unfold shortest
    dsimp only
    rw [hnum, hd]
    exact hnonneg.trans (exponent_le_strip d _)
  refine ⟨hexponent, eq_of_nearest_eq hn hbits ?_⟩
  rw [nearest_mul_pow, zero_add, Int.toNat_of_nonneg hexponent]
  exact hread

/-- **A whole number below `2^53` is shown by its digits.** -/
theorem chars_of_natural {x : Float} {n : ℕ} (h : natural? x = some n) (hpos : 0 < n) (hn : n < 2 ^ 53) :
    plain.chars x = naturalDigits n := by
  have hvalue := natural?_eq_some_iff_value?.1 h
  have hx : isFinite x := (exists_rank?_of_value? hvalue).1
  have hlt : magnitudeBits x < infinityBits := of_decide_eq_true hx
  rw [value?, if_pos hx, Option.some_inj] at hvalue
  have hn' : (0 : ℚ) < n := by exact_mod_cast hpos
  have hsign : isNegative x = false := by
    by_contra hnegative
    rw [if_pos (by simpa using hnegative)] at hvalue
    have := patternValue_nonneg (magnitudeBits x)
    linarith
  rw [hsign, if_neg Bool.false_ne_true] at hvalue
  have hne : magnitudeBits x ≠ 0 := fun hzero => by
    rw [hzero, patternValue_zero] at hvalue
    linarith
  obtain ⟨hexponent, hdigits⟩ := shortest_of_natural plain.tie hvalue hlt hpos hn
  have hcoefficient : 0 < (shortest plain.tie (magnitudeBits x)).coefficient := by
    refine Nat.pos_of_ne_zero fun hzero => ?_
    rw [hzero, zero_mul] at hdigits
    omega
  rw [Layout.chars, content_of_isFinite hx, hsign]
  change plain.magnitude (magnitudeBits x) = _
  rw [Layout.magnitude, if_neg hne]
  change plain.place (naturalDigits (shortest plain.tie (magnitudeBits x)).coefficient)
    (shortest plain.tie (magnitudeBits x)).exponent = _
  rw [Layout.place, if_pos hexponent, ← naturalDigits_mul_pow hcoefficient, hdigits]
  exact List.append_nil _

end SeriesFormula.Decimal
