import Mathlib.Algebra.Order.Field.Power
import Mathlib.Data.Int.Log
import Mathlib.Data.Rat.Floor
import Mathlib.Tactic.Linarith
import Mathlib.Tactic.Positivity
import Mathlib.Tactic.Ring
import SeriesFormula.Decimal.Nearest

/-!
# Rounding to the nearest magnitude

- `floorLog2` is the logarithm of a fraction to the base two, rounded down (`floorLog2_eq_log`);
- the pattern nearest to a fraction depends on its value only (`nearestFraction_congr`), and the pattern of a magnitude
  is the one nearest to it (`nearestFraction_ofBits`);
- the short cuts of `nearest` for exponents far from zero agree with the fraction (`nearest_eq_nearestFraction`), so
  that powers of ten can be moved between coefficient and exponent (`nearest_mul_pow`);
- small natural numbers are not near to infinity (`nearest_zero_lt_infinityBits`).
-/

namespace SeriesFormula.Decimal

/-! ## Definitions in terms of powers -/

theorem infinityBits_eq : infinityBits = 2047 * 2 ^ 52 := rfl

theorem Scaled.num_eq (x : Scaled) : x.num = x.mantissa * 2 ^ x.exponent.toNat := rfl

theorem Scaled.den_eq (x : Scaled) : x.den = 2 ^ (-x.exponent).toNat := rfl

theorem Scaled.bits_eq (x : Scaled) : x.bits = (x.exponent - leastExponent).toNat * 2 ^ 52 + x.mantissa := rfl

theorem Scaled.ofBits_eq (bits : ℕ) : Scaled.ofBits bits =
    if bits / 2 ^ 52 = 0 then ⟨bits % 2 ^ 52, leastExponent⟩
    else ⟨bits % 2 ^ 52 + 2 ^ 52, ((bits / 2 ^ 52 : ℕ) : ℤ) - 1 + leastExponent⟩ := rfl

theorem floorLog2_eq {num den : ℕ} {guess : ℤ} (h : guess = (num.log2 : ℤ) - den.log2) :
    floorLog2 num den = if den * 2 ^ guess.toNat ≤ num * 2 ^ (-guess).toNat then guess else guess - 1 := by
  rw [h]
  rfl

theorem nearestScaled_eq {num den : ℕ} {exponent : ℤ} (h : exponent = max (floorLog2 num den - 52) leastExponent) :
    nearestScaled num den =
      ⟨roundQuotient (num * 2 ^ (-exponent).toNat) (den * 2 ^ exponent.toNat), exponent⟩ := by
  rw [h]
  rfl

theorem nearest_eq {c : ℕ} (hc : c ≠ 0) (e : ℤ) : nearest c e =
    if 0 ≤ e ∧ 1024 ≤ c.log2 + 3 * e then infinityBits
    else if c.log2 + 3 * e < -1080 then 0
    else nearestFraction (c * 10 ^ e.toNat) (10 ^ (-e).toNat) := if_neg hc

/-! ## Fractions and powers of two -/

/-- A power with an integer exponent as a fraction. -/
theorem two_zpow_eq_div (e : ℤ) : (2 : ℚ) ^ e = 2 ^ e.toNat / 2 ^ (-e).toNat := by
  obtain ⟨n, rfl | rfl⟩ := Int.eq_nat_or_neg e
  · simp
  · simp

/-- Comparing a fraction with a multiple of a power of two by whole numbers only. -/
theorem mul_le_iff {num den m : ℕ} {e : ℤ} (hden : 0 < den) :
    m * (den * 2 ^ e.toNat) ≤ num * 2 ^ (-e).toNat ↔ (m : ℚ) * 2 ^ e ≤ num / den := by
  have hd : (0 : ℚ) < den := by exact_mod_cast hden
  have hp : (0 : ℚ) < 2 ^ (-e).toNat := by positivity
  rw [two_zpow_eq_div, le_div_iff₀ hd, ← mul_div_assoc, div_mul_eq_mul_div, div_le_iff₀ hp, mul_assoc,
    mul_comm (2 ^ e.toNat : ℚ)]
  exact_mod_cast Iff.rfl

/-- Comparing a fraction with a power of two. -/
theorem two_zpow_le_iff {num den : ℕ} {e : ℤ} (hden : 0 < den) :
    den * 2 ^ e.toNat ≤ num * 2 ^ (-e).toNat ↔ (2 : ℚ) ^ e ≤ num / den := by
  rw [← one_mul (den * 2 ^ e.toNat), mul_le_iff hden, Nat.cast_one, one_mul]

/-- The bounds that make a number the logarithm. -/
theorem log_eq_of_le_of_lt {x : ℚ} {l : ℤ} (hl : 2 ^ l ≤ x) (hu : x < 2 ^ (l + 1)) : Int.log 2 x = l := by
  have hx : 0 < x := lt_of_lt_of_le (by positivity) hl
  have h₁ := (Int.zpow_le_iff_le_log one_lt_two hx).1 (by exact_mod_cast hl)
  have h₂ := (Int.lt_zpow_iff_log_lt one_lt_two hx).1 (by exact_mod_cast hu)
  omega

section Log

variable {num den : ℕ} (hnum : 0 < num) (hden : 0 < den)
include hnum hden

/-- The difference of the logarithms is that of the fraction or one more. -/
theorem div_bounds : (2 : ℚ) ^ ((num.log2 : ℤ) - den.log2 - 1) ≤ num / den ∧
    (num : ℚ) / den < 2 ^ ((num.log2 : ℤ) - den.log2 + 1) := by
  have hd : (0 : ℚ) < den := by exact_mod_cast hden
  have hnl : (2 : ℚ) ^ (num.log2 : ℤ) ≤ num := by exact_mod_cast Nat.log2_self_le hnum.ne'
  have hnu : (num : ℚ) < 2 ^ ((num.log2 : ℤ) + 1) := by exact_mod_cast Nat.lt_log2_self
  have hdl : (2 : ℚ) ^ (den.log2 : ℤ) ≤ den := by exact_mod_cast Nat.log2_self_le hden.ne'
  have hdu : (den : ℚ) < 2 ^ ((den.log2 : ℤ) + 1) := by exact_mod_cast Nat.lt_log2_self
  constructor
  · rw [le_div_iff₀ hd]
    calc (2 : ℚ) ^ ((num.log2 : ℤ) - den.log2 - 1) * den
        ≤ 2 ^ ((num.log2 : ℤ) - den.log2 - 1) * 2 ^ ((den.log2 : ℤ) + 1) := by gcongr
      _ = 2 ^ (num.log2 : ℤ) := by rw [← zpow_add₀ two_ne_zero]; congr 1; ring
      _ ≤ num := hnl
  · rw [div_lt_iff₀ hd]
    calc (num : ℚ) < 2 ^ ((num.log2 : ℤ) + 1) := hnu
      _ = 2 ^ ((num.log2 : ℤ) - den.log2 + 1) * 2 ^ (den.log2 : ℤ) := by
        rw [← zpow_add₀ two_ne_zero]; congr 1; ring
      _ ≤ 2 ^ ((num.log2 : ℤ) - den.log2 + 1) * den := by gcongr

theorem floorLog2_eq_log : floorLog2 num den = Int.log 2 ((num : ℚ) / den) := by
  obtain ⟨hl, hu⟩ := div_bounds hnum hden
  have hiff : _ ↔ (2 : ℚ) ^ ((num.log2 : ℤ) - den.log2) ≤ num / den := two_zpow_le_iff hden
  rw [floorLog2_eq rfl]
  split
  · rename_i h
    exact (log_eq_of_le_of_lt (hiff.1 h) hu).symm
  · rename_i h
    refine (log_eq_of_le_of_lt hl ?_).symm
    rw [sub_add_cancel]
    exact lt_of_not_ge fun h' => h (hiff.2 h')

end Log

/-! ## Quotients -/

theorem roundQuotient_mul_right {num den k : ℕ} (hk : 0 < k) :
    roundQuotient (num * k) (den * k) = roundQuotient num den := by
  have h₁ : 2 * (num % den * k) < den * k ↔ 2 * (num % den) < den := by
    rw [← mul_assoc]; exact Nat.mul_lt_mul_right hk
  have h₂ : 2 * (num % den * k) = den * k ↔ 2 * (num % den) = den := by
    rw [← mul_assoc]; exact Nat.mul_left_inj hk.ne'
  simp only [roundQuotient, Nat.mul_div_mul_right _ _ hk, Nat.mul_mod_mul_right, h₁, h₂]

/-- A whole number is not rounded. -/
theorem roundQuotient_mul_self {m den : ℕ} (hden : 0 < den) : roundQuotient (m * den) den = m := by
  unfold roundQuotient
  simp [Nat.mul_div_cancel m hden, hden]

theorem le_roundQuotient {num den m : ℕ} (hden : 0 < den) (h : m * den ≤ num) : m ≤ roundQuotient num den := by
  have hq : m ≤ num / den := (Nat.le_div_iff_mul_le hden).2 h
  unfold roundQuotient
  dsimp only
  split <;> omega

theorem roundQuotient_le {num den m : ℕ} (hden : 0 < den) (h : num ≤ m * den) : roundQuotient num den ≤ m := by
  rcases Nat.lt_or_eq_of_le (Nat.div_le_of_le_mul (Nat.mul_comm m den ▸ h)) with hlt | heq
  · unfold roundQuotient
    dsimp only
    split <;> omega
  · -- a quotient that is as large leaves no remainder
    have hnum : num = m * den := Nat.le_antisymm h (heq ▸ Nat.div_mul_le_self num den)
    rw [hnum, roundQuotient_mul_self hden]

/-- Less than a half is rounded to zero. -/
theorem roundQuotient_eq_zero {num den : ℕ} (h : 2 * num < den) : roundQuotient num den = 0 := by
  have hq : num / den = 0 := Nat.div_eq_of_lt (by omega)
  have hr : num % den = num := Nat.mod_eq_of_lt (by omega)
  unfold roundQuotient
  rw [hq, hr, if_pos (.inl h)]

/-! ## Fractions -/

theorem nearestScaled_mul_right {num den k : ℕ} (hnum : 0 < num) (hden : 0 < den) (hk : 0 < k) :
    nearestScaled (num * k) (den * k) = nearestScaled num den := by
  have hkq : (k : ℚ) ≠ 0 := by exact_mod_cast hk.ne'
  have hlog : floorLog2 (num * k) (den * k) = floorLog2 num den := by
    rw [floorLog2_eq_log (by positivity) (by positivity), floorLog2_eq_log hnum hden, Nat.cast_mul, Nat.cast_mul,
      mul_div_mul_right _ _ hkq]
  rw [nearestScaled_eq rfl, nearestScaled_eq rfl, hlog, mul_right_comm _ k, mul_right_comm _ k,
    roundQuotient_mul_right hk]

/-- **The pattern nearest to a fraction depends on its value only.** -/
theorem nearestFraction_congr {num den num' den' : ℕ} (hden : 0 < den) (hden' : 0 < den')
    (h : num * den' = num' * den) : nearestFraction num den = nearestFraction num' den' := by
  by_cases hnum : num = 0
  · have hnum' : num' = 0 := by
      rw [hnum, zero_mul] at h
      exact (Nat.mul_eq_zero.1 h.symm).resolve_right hden.ne'
    rw [hnum, hnum', nearestFraction, nearestFraction, if_pos rfl, if_pos rfl]
  · have hnum' : num' ≠ 0 := by
      rintro rfl
      rw [zero_mul] at h
      exact hnum ((Nat.mul_eq_zero.1 h).resolve_right hden'.ne')
    have hs : nearestScaled num den = nearestScaled num' den' := by
      rw [← nearestScaled_mul_right (Nat.pos_of_ne_zero hnum) hden hden', h, mul_comm den,
        nearestScaled_mul_right (Nat.pos_of_ne_zero hnum') hden' hden]
    rw [nearestFraction, nearestFraction, if_neg hnum, if_neg hnum', hs]

/-! ## The short cuts -/

section Extremes

variable {num den : ℕ} (hnum : 0 < num) (hden : 0 < den)
include hnum hden

/-- Beyond the largest number. -/
theorem nearestFraction_of_large {n : ℕ} (hn : 1024 ≤ n) (h : den * 2 ^ n ≤ num) :
    nearestFraction num den = infinityBits := by
  have hx : (0 : ℚ) < num / den := by positivity
  have hlog : (n : ℤ) ≤ Int.log 2 ((num : ℚ) / den) := by
    refine (Int.zpow_le_iff_le_log one_lt_two hx).1 ?_
    have hle : (2 : ℚ) ^ (n : ℤ) ≤ num / den := (two_zpow_le_iff hden).1 (by simpa using h)
    exact_mod_cast hle
  have hexp : Int.log 2 ((num : ℚ) / den) - 52 = max (floorLog2 num den - 52) leastExponent := by
    rw [floorLog2_eq_log hnum hden, leastExponent]
    omega
  have hmant : 2 ^ 52 ≤ (nearestScaled num den).mantissa := by
    rw [nearestScaled_eq hexp]
    refine le_roundQuotient (by positivity) ((mul_le_iff hden).2 ?_)
    calc ((2 ^ 52 : ℕ) : ℚ) * 2 ^ (Int.log 2 ((num : ℚ) / den) - 52)
        = 2 ^ Int.log 2 ((num : ℚ) / den) := by
          rw [Nat.cast_pow, Nat.cast_ofNat, ← zpow_natCast, ← zpow_add₀ two_ne_zero]
          congr 1
          omega
      _ ≤ num / den := by exact_mod_cast Int.zpow_log_le_self one_lt_two hx
  have hbits : infinityBits ≤ (nearestScaled num den).bits := by
    have hE : (nearestScaled num den).exponent = Int.log 2 ((num : ℚ) / den) - 52 := hexp.symm
    rw [Scaled.bits_eq, hE, infinityBits_eq, leastExponent]
    omega
  rw [nearestFraction, if_neg hnum.ne', min_eq_right hbits]

/-- Less than half of the least number. -/
theorem nearestFraction_of_small {n : ℕ} (hn : 1075 ≤ n) (h : num * 2 ^ n < den) : nearestFraction num den = 0 := by
  have hx : (0 : ℚ) < num / den := by positivity
  have hlog : Int.log 2 ((num : ℚ) / den) < -(n : ℤ) := by
    refine (Int.lt_zpow_iff_log_lt one_lt_two hx).1 (lt_of_not_ge fun h' => ?_)
    have hle : den * 2 ^ (-(n : ℤ)).toNat ≤ num * 2 ^ (- -(n : ℤ)).toNat :=
      (two_zpow_le_iff hden).2 (by exact_mod_cast h')
    have hz : (-(n : ℤ)).toNat = 0 := by omega
    rw [hz, neg_neg, Int.toNat_natCast, pow_zero, mul_one] at hle
    omega
  have hexp : leastExponent = max (floorLog2 num den - 52) leastExponent := by
    rw [floorLog2_eq_log hnum hden, leastExponent]
    omega
  have hround : roundQuotient (num * 2 ^ (-leastExponent).toNat) (den * 2 ^ leastExponent.toNat) = 0 := by
    have he : (-leastExponent).toNat = 1074 ∧ leastExponent.toNat = 0 := by decide
    have hhalf : ∀ k < n, 2 * (num * 2 ^ k) < den := fun k hk =>
      calc 2 * (num * 2 ^ k) = num * 2 ^ (k + 1) := by ring
        _ ≤ num * 2 ^ n := Nat.mul_le_mul_left _ (Nat.pow_le_pow_right (by norm_num) hk)
        _ < den := h
    rw [he.1, he.2, pow_zero, mul_one]
    exact roundQuotient_eq_zero (hhalf 1074 (by omega))
  have hbits : (nearestScaled num den).bits = 0 := by
    rw [nearestScaled_eq hexp, hround, Scaled.bits_eq]
    simp
  rw [nearestFraction, if_neg hnum.ne', hbits, Nat.zero_min]

/-- A mantissa has at most 53 bits, or is `2^53`. -/
theorem mantissa_nearestScaled_le : (nearestScaled num den).mantissa ≤ 2 ^ 53 := by
  have hupper : (num : ℚ) / den < 2 ^ (floorLog2 num den + 1) := by
    rw [floorLog2_eq_log hnum hden]
    exact_mod_cast Int.lt_zpow_succ_log_self one_lt_two ((num : ℚ) / den)
  have hexp : floorLog2 num den - 52 ≤ max (floorLog2 num den - 52) leastExponent := le_max_left _ _
  generalize hE : max (floorLog2 num den - 52) leastExponent = E at hexp
  rw [nearestScaled_eq hE.symm]
  refine roundQuotient_le (by positivity) (le_of_not_ge fun hle => ?_)
  have hlower : (2 : ℚ) ^ (floorLog2 num den + 1) ≤ num / den :=
    calc (2 : ℚ) ^ (floorLog2 num den + 1) ≤ 2 ^ (53 + E) := zpow_le_zpow_right₀ one_le_two (by omega)
      _ = ((2 ^ 53 : ℕ) : ℚ) * 2 ^ E := by
        rw [zpow_add₀ two_ne_zero]
        norm_num
      _ ≤ num / den := (mul_le_iff hden).1 hle
  exact absurd hupper (not_lt_of_ge hlower)

/-- A fraction below `2^1023` is near to a number. -/
theorem nearestFraction_lt_infinityBits {n : ℕ} (hn : n ≤ 1023) (h : num < den * 2 ^ n) :
    nearestFraction num den < infinityBits := by
  have hx : (0 : ℚ) < num / den := by positivity
  have hd : (0 : ℚ) < den := by exact_mod_cast hden
  have hlog : floorLog2 num den < n := by
    rw [floorLog2_eq_log hnum hden]
    refine (Int.lt_zpow_iff_log_lt one_lt_two hx).1 ?_
    rw [div_lt_iff₀' hd]
    exact_mod_cast h
  have hmantissa := mantissa_nearestScaled_le hnum hden
  have hexp : (nearestScaled num den).exponent ≤ 970 := by
    show max (floorLog2 num den - 52) leastExponent ≤ 970
    rw [leastExponent]
    omega
  have hbits : (nearestScaled num den).bits < infinityBits := by
    rw [Scaled.bits_eq, infinityBits_eq, leastExponent]
    omega
  rw [nearestFraction, if_neg hnum.ne']
  omega

end Extremes

/-- **The short cuts agree with the fraction.** -/
theorem nearest_eq_nearestFraction {c : ℕ} (hc : 0 < c) (e : ℤ) :
    nearest c e = nearestFraction (c * 10 ^ e.toNat) (10 ^ (-e).toNat) := by
  have hten : ∀ n : ℕ, 2 ^ (3 * n) ≤ 10 ^ n := fun n => by
    rw [pow_mul]
    exact Nat.pow_le_pow_left (by norm_num) n
  rw [nearest_eq hc.ne']
  split
  · rename_i h
    obtain ⟨n, rfl⟩ := Int.eq_ofNat_of_zero_le h.1
    have hlarge : 1024 ≤ c.log2 + 3 * n := by omega
    refine (nearestFraction_of_large (by positivity) (by positivity) hlarge ?_).symm
    have hz : (-(n : ℤ)).toNat = 0 := by omega
    rw [hz, pow_zero, one_mul, Int.toNat_natCast, pow_add]
    exact Nat.mul_le_mul (Nat.log2_self_le hc.ne') (hten n)
  · split
    · rename_i h
      obtain ⟨n, rfl⟩ : ∃ n : ℕ, e = -(n : ℤ) := ⟨(-e).toNat, by omega⟩
      have hsmall : 1075 ≤ 3 * n - (c.log2 + 1) := by omega
      refine (nearestFraction_of_small (by positivity) (by positivity) hsmall ?_).symm
      have hz : (-(n : ℤ)).toNat = 0 := by omega
      rw [hz, pow_zero, mul_one, neg_neg, Int.toNat_natCast]
      calc c * 2 ^ (3 * n - (c.log2 + 1)) < 2 ^ (c.log2 + 1) * 2 ^ (3 * n - (c.log2 + 1)) :=
            Nat.mul_lt_mul_of_pos_right Nat.lt_log2_self (by positivity)
        _ = 2 ^ (3 * n) := by rw [← pow_add, Nat.add_sub_cancel' (by omega)]
        _ ≤ 10 ^ n := hten n
    · rfl

/-- **Powers of ten can be moved from the coefficient to the exponent.** -/
theorem nearest_mul_pow (c k : ℕ) (e : ℤ) : nearest (c * 10 ^ k) e = nearest c (e + k) := by
  rcases Nat.eq_zero_or_pos c with rfl | hc
  · simp [nearest]
  · rw [nearest_eq_nearestFraction (by positivity), nearest_eq_nearestFraction hc]
    refine nearestFraction_congr (by positivity) (by positivity) ?_
    have hexp : k + e.toNat + (-(e + k)).toNat = (e + k).toNat + (-e).toNat := by omega
    calc c * 10 ^ k * 10 ^ e.toNat * 10 ^ (-(e + k)).toNat
        = c * 10 ^ (k + e.toNat + (-(e + k)).toNat) := by ring
      _ = c * 10 ^ (e + k).toNat * 10 ^ (-e).toNat := by rw [hexp]; ring

/-- A natural number below `2^1023` is near to a number. -/
theorem nearest_zero_lt_infinityBits {c n : ℕ} (hn : n ≤ 1023) (h : c < 2 ^ n) : nearest c 0 < infinityBits := by
  rcases Nat.eq_zero_or_pos c with rfl | hc
  · decide
  · rw [nearest_eq_nearestFraction hc]
    exact nearestFraction_lt_infinityBits (by simpa using hc) (by simp) hn (by simpa using h)

/-! ## Magnitudes -/

theorem Scaled.den_pos (x : Scaled) : 0 < x.den := Nat.two_pow_pos _

/-- The value of a magnitude as a fraction. -/
theorem Scaled.num_div_den (x : Scaled) : (x.num : ℚ) / x.den = x.mantissa * 2 ^ x.exponent := by
  rw [two_zpow_eq_div, Scaled.num_eq, Scaled.den_eq]
  push_cast
  ring

/-- The logarithm of a magnitude above zero. -/
theorem floorLog2_num_den {x : Scaled} (hm : x.mantissa ≠ 0) :
    floorLog2 x.num x.den = x.mantissa.log2 + x.exponent := by
  have hnum : 0 < x.num := Nat.mul_pos (Nat.pos_of_ne_zero hm) (Nat.two_pow_pos _)
  rw [floorLog2_eq_log hnum x.den_pos, x.num_div_den]
  refine log_eq_of_le_of_lt ?_ ?_
  · rw [zpow_add₀ two_ne_zero, zpow_natCast]
    gcongr
    exact_mod_cast Nat.log2_self_le hm
  · rw [add_right_comm, zpow_add₀ two_ne_zero]
    gcongr
    exact_mod_cast Nat.lt_log2_self

/-- A magnitude has the least exponent, or a mantissa of 53 bits. -/
theorem exponent_ofBits (bits : ℕ) : (Scaled.ofBits bits).mantissa < 2 ^ 53 ∧
    leastExponent ≤ (Scaled.ofBits bits).exponent ∧
    ((Scaled.ofBits bits).exponent = leastExponent ∨ 2 ^ 52 ≤ (Scaled.ofBits bits).mantissa) := by
  have hlt := Nat.mod_lt bits (Nat.two_pow_pos 52)
  rw [Scaled.ofBits_eq]
  split
  · exact ⟨by dsimp only; omega, le_rfl, .inl rfl⟩
  · exact ⟨by dsimp only; omega, by dsimp only; omega, .inr (by dsimp only; omega)⟩

/-- The number of a pattern has the pattern. -/
theorem bits_ofBits (bits : ℕ) : (Scaled.ofBits bits).bits = bits := by
  have hdm := Nat.div_add_mod bits (2 ^ 52)
  rw [Scaled.ofBits_eq]
  split
  · rename_i hf
    rw [hf] at hdm
    simp only [Scaled.bits_eq, sub_self, Int.toNat_zero, zero_mul, zero_add]
    omega
  · rename_i hf
    have he : ((bits / 2 ^ 52 : ℕ) : ℤ) - 1 + leastExponent - leastExponent = ((bits / 2 ^ 52 - 1 : ℕ) : ℤ) := by
      omega
    simp only [Scaled.bits_eq, he, Int.toNat_natCast]
    omega

/-- **The pattern of a magnitude is the one nearest to it.** -/
theorem nearestFraction_ofBits {bits : ℕ} (h : 0 < bits) (hlt : bits < infinityBits) :
    nearestFraction (Scaled.ofBits bits).num (Scaled.ofBits bits).den = bits := by
  obtain ⟨hu, hleast, hl⟩ := exponent_ofBits bits
  have hbits := bits_ofBits bits
  generalize Scaled.ofBits bits = x at *
  have hm : x.mantissa ≠ 0 := by
    -- a mantissa of zero has the least exponent, and then the pattern is zero
    intro hm
    rcases hl with hl | hl
    · rw [Scaled.bits_eq, hl, hm, sub_self] at hbits
      simp at hbits
      omega
    · omega
  have hnum : 0 < x.num := Nat.mul_pos (Nat.pos_of_ne_zero hm) (Nat.two_pow_pos _)
  have hexp : x.exponent = max (floorLog2 x.num x.den - 52) leastExponent := by
    have hlog := (Nat.log2_lt hm).2 hu
    rw [floorLog2_num_den hm]
    rcases hl with hl | hl
    · omega
    · have := (Nat.le_log2 hm).2 hl
      omega
  have hround : roundQuotient (x.num * 2 ^ (-x.exponent).toNat) (x.den * 2 ^ x.exponent.toNat) = x.mantissa := by
    rw [Scaled.num_eq, Scaled.den_eq, mul_assoc, mul_comm (2 ^ (-x.exponent).toNat)]
    exact roundQuotient_mul_self (by positivity)
  have hs : nearestScaled x.num x.den = x := by rw [nearestScaled_eq hexp, hround]
  rw [nearestFraction, if_neg hnum.ne', hs, hbits, min_eq_left hlt.le]

end SeriesFormula.Decimal
