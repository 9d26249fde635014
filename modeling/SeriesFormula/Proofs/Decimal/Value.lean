import Mathlib.Tactic.FieldSimp
import SeriesFormula.Decimal.Literal
import SeriesFormula.Proofs.Decimal.Pattern
import SeriesFormula.Proofs.Decimal.Rounding

/-!
# The values of floats

A finite float stands for a rational number (`value?`). The values of magnitudes are ordered like their patterns
(`patternValue_strictMono`), where infinity has the place of `2^1024`.

- `IsNearest q bits` says that no magnitude is nearer to `q` than the pattern's, and that of two equally near ones the
  pattern is the even one; there is only one such pattern (`IsNearest.unique`);
- the pattern that is computed for a fraction and for a decimal is the nearest (`isNearest_nearestFraction`,
  `isNearest_nearest`);
- a literal of finite value has the float as its value that it rounds to (`Literal.value_eq_iff_roundsTo`);
- a float equals a natural number iff that is its value (`natural?_eq_some_iff_value?`).
-/

namespace SeriesFormula.Decimal

/-! ## Magnitudes -/

/-- The number that a scaled mantissa stands for. -/
def Scaled.value (x : Scaled) : ℚ := x.mantissa * 2 ^ x.exponent

/-- The number that a magnitude's pattern stands for. -/
def patternValue (bits : ℕ) : ℚ := (Scaled.ofBits bits).value

/-- A mantissa that is large enough for its exponent has its place among the patterns; `2^53` is carried. -/
theorem patternValue_eq {m : ℕ} {e : ℤ} (he : leastExponent ≤ e) (hm : m ≤ 2 ^ 53)
    (hl : e = leastExponent ∨ 2 ^ 52 ≤ m) :
    patternValue ((e - leastExponent).toNat * 2 ^ 52 + m) = m * 2 ^ e := by
  obtain ⟨k, rfl⟩ : ∃ k : ℕ, e = leastExponent + k := ⟨(e - leastExponent).toNat, by omega⟩
  rw [add_sub_cancel_left, Int.toNat_natCast, patternValue, Scaled.ofBits_eq]
  rcases Nat.lt_or_ge m (2 ^ 52) with hlt | hge
  · -- below `2^52` the exponent is the least
    have hk : k = 0 := by omega
    subst hk
    rw [Nat.zero_mul, Nat.zero_add, if_pos (Nat.div_eq_of_lt hlt), Nat.mod_eq_of_lt hlt, Scaled.value, Nat.cast_zero,
      add_zero]
  · rcases Nat.lt_or_eq_of_le hm with hlt | rfl
    · have hdiv : (k * 2 ^ 52 + m) / 2 ^ 52 = k + 1 := by omega
      have hmod : (k * 2 ^ 52 + m) % 2 ^ 52 + 2 ^ 52 = m := by omega
      rw [hdiv, if_neg (Nat.succ_ne_zero k), hmod, Scaled.value]
      dsimp only
      congr 2
      omega
    · have hdiv : (k * 2 ^ 52 + 2 ^ 53) / 2 ^ 52 = k + 2 := by omega
      have hmod : (k * 2 ^ 52 + 2 ^ 53) % 2 ^ 52 = 0 := by omega
      have hexp : ((k + 2 : ℕ) : ℤ) - 1 + leastExponent = leastExponent + k + 1 := by omega
      rw [hdiv, if_neg (Nat.succ_ne_zero _), hmod, Scaled.value, hexp, zpow_add_one₀ two_ne_zero]
      push_cast
      ring

/-- The magnitude of a pattern has the place of the pattern. -/
theorem patternValue_ofBits (bits : ℕ) : ∃ m e, (Scaled.ofBits bits) = ⟨m, e⟩ ∧ leastExponent ≤ e ∧ m < 2 ^ 53 ∧
    (e = leastExponent ∨ 2 ^ 52 ≤ m) ∧ bits = (e - leastExponent).toNat * 2 ^ 52 + m := by
  obtain ⟨hu, he, hl⟩ := exponent_ofBits bits
  have hbits := bits_ofBits bits
  rw [Scaled.bits_eq] at hbits
  exact ⟨_, _, rfl, he, hu, hl, hbits.symm⟩

/-- The next magnitude is one unit of the last place away. -/
theorem patternValue_succ (bits : ℕ) :
    patternValue (bits + 1) = patternValue bits + 2 ^ (Scaled.ofBits bits).exponent := by
  obtain ⟨m, e, hx, he, hm, hl, hbits⟩ := patternValue_ofBits bits
  have hnext := patternValue_eq he (Nat.succ_le_of_lt hm) (hl.imp_right Nat.le_succ_of_le)
  rw [Nat.succ_eq_add_one, ← Nat.add_assoc, ← hbits] at hnext
  rw [hnext, patternValue, hx, Scaled.value]
  push_cast
  ring

/-- **Magnitudes are ordered like their patterns.** -/
theorem patternValue_strictMono : StrictMono patternValue := by
  refine strictMono_nat_of_lt_succ fun bits => ?_
  rw [patternValue_succ]
  exact lt_add_of_pos_right _ (zpow_pos two_pos _)

theorem patternValue_zero : patternValue 0 = 0 := by
  rw [patternValue, Scaled.ofBits_eq, if_pos (Nat.zero_div _), Scaled.value, Nat.zero_mod, Nat.cast_zero, zero_mul]

theorem patternValue_nonneg (bits : ℕ) : 0 ≤ patternValue bits :=
  patternValue_zero ▸ patternValue_strictMono.monotone (Nat.zero_le bits)

/-! ## The nearest magnitude -/

/-- No magnitude is nearer to the number, where infinity has the place of `2^1024`; of two equally near ones the pattern
is the even one. -/
def IsNearest (q : ℚ) (bits : ℕ) : Prop :=
  bits ≤ infinityBits ∧ ∀ other ≤ infinityBits, other ≠ bits →
    |patternValue bits - q| ≤ |patternValue other - q| ∧
      (|patternValue bits - q| = |patternValue other - q| → bits % 2 = 0)

/-- There is only one nearest magnitude. -/
theorem IsNearest.unique {q : ℚ} {bits other : ℕ} (h : IsNearest q bits) (h' : IsNearest q other) : bits = other := by
  -- two of them would be even and equally far, and the magnitude between them nearer
  wlog hlt : bits < other generalizing bits other
  · rcases Nat.lt_or_eq_of_le (Nat.le_of_not_lt hlt) with hgt | heq
    · exact (this h' h hgt).symm
    · exact heq.symm
  obtain ⟨hle, hties⟩ := h.2 other h'.1 hlt.ne'
  obtain ⟨hle', hties'⟩ := h'.2 bits h.1 hlt.ne
  have heq := le_antisymm hle hle'
  have heven := hties heq
  have heven' := hties' heq.symm
  have hlow := patternValue_strictMono (Nat.lt_succ_self bits)
  have hhigh := patternValue_strictMono (show bits + 1 < other by omega)
  obtain ⟨hmiddle, -⟩ := h.2 (bits + 1) (by have := h'.1; omega) (Nat.succ_ne_self bits)
  rcases abs_eq_abs.1 heq with hsame | hopposite
  · linarith
  · refine absurd hmiddle (not_le_of_gt ?_)
    rw [abs_of_nonpos (show patternValue bits - q ≤ 0 by linarith), abs_lt]
    constructor <;> linarith

/-- A magnitude is the nearest if each other one is farther, or is as far and the pattern is even. -/
theorem isNearest_of_forall {q : ℚ} {bits : ℕ} (hbits : bits ≤ infinityBits)
    (h : ∀ other ≤ infinityBits, other ≠ bits → |patternValue bits - q| < |patternValue other - q| ∨
      |patternValue bits - q| = |patternValue other - q| ∧ bits % 2 = 0) : IsNearest q bits := by
  refine ⟨hbits, fun other hother hne => ?_⟩
  rcases h other hother hne with hlt | ⟨heq, heven⟩
  · exact ⟨hlt.le, fun heq => absurd heq hlt.ne⟩
  · exact ⟨heq.le, fun _ => heven⟩

/-- The nearer one of two neighbours around a number is the nearest. -/
theorem isNearest_of_between {q : ℚ} {bits : ℕ} (hbits : bits + 1 ≤ infinityBits) (hl : patternValue bits ≤ q)
    (hu : q ≤ patternValue (bits + 1)) :
    (q - patternValue bits < patternValue (bits + 1) - q ∨
      q - patternValue bits = patternValue (bits + 1) - q ∧ bits % 2 = 0 → IsNearest q bits) ∧
    (patternValue (bits + 1) - q < q - patternValue bits ∨
      q - patternValue bits = patternValue (bits + 1) - q ∧ (bits + 1) % 2 = 0 → IsNearest q (bits + 1)) := by
  have hlow : |patternValue bits - q| = q - patternValue bits := by rw [abs_of_nonpos (by linarith)]; ring
  have hhigh : |patternValue (bits + 1) - q| = patternValue (bits + 1) - q := abs_of_nonneg (by linarith)
  have hbelow : ∀ other < bits, q - patternValue bits < |patternValue other - q| := fun other hother => by
    have := patternValue_strictMono hother
    rw [abs_of_nonpos (by linarith)]
    linarith
  have habove : ∀ other > bits + 1, patternValue (bits + 1) - q < |patternValue other - q| := fun other hother => by
    have := patternValue_strictMono hother
    rw [abs_of_nonneg (by linarith)]
    linarith
  refine ⟨fun hnear => isNearest_of_forall (by omega) fun other _ hne => ?_,
    fun hnear => isNearest_of_forall hbits fun other _ hne => ?_⟩
  · rw [hlow]
    rcases Nat.lt_trichotomy other (bits + 1) with hlt | rfl | hgt
    · exact .inl (hbelow other (by omega))
    · rw [hhigh]
      exact hnear
    · have hle : q - patternValue bits ≤ patternValue (bits + 1) - q := hnear.elim le_of_lt fun h => h.1.le
      exact .inl (hle.trans_lt (habove other hgt))
  · rw [hhigh]
    rcases Nat.lt_trichotomy other bits with hlt | rfl | hgt
    · have hle : patternValue (bits + 1) - q ≤ q - patternValue bits := hnear.elim le_of_lt fun h => h.1.ge
      exact .inl (hle.trans_lt (hbelow other hlt))
    · rw [hlow]
      exact hnear.imp_right (And.imp_left Eq.symm)
    · exact .inl (habove other (by omega))

/-- Infinity is the nearest from `2^1024` on. -/
theorem isNearest_infinityBits {q : ℚ} (h : patternValue infinityBits ≤ q) : IsNearest q infinityBits := by
  refine isNearest_of_forall le_rfl fun other hle hne => .inl ?_
  have hlt := patternValue_strictMono (Nat.lt_of_le_of_ne hle hne)
  rw [abs_of_nonpos (by linarith), abs_of_nonpos (by linarith)]
  linarith

/-- A number that is a magnitude's value is nearest to that. -/
theorem isNearest_patternValue {bits : ℕ} (h : bits ≤ infinityBits) : IsNearest (patternValue bits) bits := by
  refine isNearest_of_forall h fun other _ hne => .inl ?_
  rw [sub_self, abs_zero]
  exact abs_pos.2 (sub_ne_zero.2 fun heq => hne (patternValue_strictMono.injective heq))

theorem isNearest_zero : IsNearest 0 0 := by
  have h := isNearest_patternValue (Nat.zero_le infinityBits)
  rwa [patternValue_zero] at h

/-- A quotient is rounded to the nearer one of its neighbours; a half goes to the even one. -/
theorem roundQuotient_cases {num den : ℕ} (hden : 0 < den) {q : ℚ} (hq : (num : ℚ) / den = q) :
    roundQuotient num den = num / den ∧ (q - (num / den : ℕ) < (num / den + 1 : ℕ) - q ∨
      q - (num / den : ℕ) = (num / den + 1 : ℕ) - q ∧ num / den % 2 = 0) ∨
    roundQuotient num den = num / den + 1 ∧ ((num / den + 1 : ℕ) - q < q - (num / den : ℕ) ∨
      q - (num / den : ℕ) = (num / den + 1 : ℕ) - q ∧ (num / den + 1) % 2 = 0) := by
  have hd : (0 : ℚ) < den := by exact_mod_cast hden
  have hsplit : (num : ℚ) = den * (num / den : ℕ) + (num % den : ℕ) := by exact_mod_cast (Nat.div_add_mod num den).symm
  have hrest : q - (num / den : ℕ) = (num % den : ℕ) / den := by
    rw [← hq]
    field_simp
    linarith
  have hother : ((num / den + 1 : ℕ) : ℚ) - q = 1 - (num % den : ℕ) / den := by
    rw [← hrest]
    push_cast
    ring
  have hlt : ((num % den : ℕ) : ℚ) / den < 1 - (num % den : ℕ) / den ↔ 2 * (num % den) < den := by
    rw [lt_sub_iff_add_lt, ← two_mul, ← mul_div_assoc, div_lt_one hd]
    exact_mod_cast Iff.rfl
  have hgt : 1 - ((num % den : ℕ) : ℚ) / den < (num % den : ℕ) / den ↔ den < 2 * (num % den) := by
    rw [sub_lt_iff_lt_add, ← two_mul, ← mul_div_assoc, one_lt_div hd]
    exact_mod_cast Iff.rfl
  have heq : ((num % den : ℕ) : ℚ) / den = 1 - (num % den : ℕ) / den ↔ 2 * (num % den) = den := by
    rw [eq_sub_iff_add_eq, ← two_mul, ← mul_div_assoc, div_eq_one_iff_eq hd.ne']
    exact_mod_cast Iff.rfl
  rw [hrest, hother, hlt, hgt, heq]
  unfold roundQuotient
  dsimp only
  split
  · rename_i hdown
    exact .inl ⟨rfl, hdown⟩
  · exact .inr ⟨rfl, by omega⟩

section

variable {num den : ℕ} (hnum : 0 < num) (hden : 0 < den)
include hnum hden

/-- The whole part of the mantissa of a fraction, which lies between it and the next. -/
theorem exists_mantissa : ∃ m e, e = max (floorLog2 num den - 52) leastExponent ∧ m < 2 ^ 53 ∧
    (e = leastExponent ∨ 2 ^ 52 ≤ m) ∧ m = num * 2 ^ (-e).toNat / (den * 2 ^ e.toNat) ∧
    (m : ℚ) * 2 ^ e ≤ num / den ∧ (num : ℚ) / den < (m + 1 : ℕ) * 2 ^ e := by
  have hx : (0 : ℚ) < num / den := by positivity
  have hlower : (2 : ℚ) ^ floorLog2 num den ≤ num / den := by
    rw [floorLog2_eq_log hnum hden]
    exact_mod_cast Int.zpow_log_le_self one_lt_two hx
  have hupper : (num : ℚ) / den < 2 ^ (floorLog2 num den + 1) := by
    rw [floorLog2_eq_log hnum hden]
    exact_mod_cast Int.lt_zpow_succ_log_self one_lt_two ((num : ℚ) / den)
  have hexp : floorLog2 num den - 52 ≤ max (floorLog2 num den - 52) leastExponent := le_max_left _ _
  have hleast : max (floorLog2 num den - 52) leastExponent = leastExponent ∨
      max (floorLog2 num den - 52) leastExponent = floorLog2 num den - 52 := (max_choice _ _).symm
  generalize hE : max (floorLog2 num den - 52) leastExponent = e at hexp hleast
  have hd : 0 < den * 2 ^ e.toNat := by positivity
  have hle : ((num * 2 ^ (-e).toNat / (den * 2 ^ e.toNat) : ℕ) : ℚ) * 2 ^ e ≤ num / den :=
    (mul_le_iff hden).1 (Nat.div_mul_le_self _ _)
  have hlt : (num : ℚ) / den < (num * 2 ^ (-e).toNat / (den * 2 ^ e.toNat) + 1 : ℕ) * 2 ^ e := by
    refine lt_of_not_ge fun hge => ?_
    have hmul := (mul_le_iff hden).2 hge
    exact absurd ((Nat.le_div_iff_mul_le hd).2 hmul) (Nat.not_succ_le_self _)
  refine ⟨_, e, rfl, ?_, ?_, rfl, hle, hlt⟩
  · have hbound : (((num * 2 ^ (-e).toNat / (den * 2 ^ e.toNat) : ℕ) : ℚ)) < (2 ^ 53 : ℕ) := by
      refine lt_of_mul_lt_mul_right (hle.trans_lt (hupper.trans_le ?_)) (zpow_pos two_pos e).le
      calc (2 : ℚ) ^ (floorLog2 num den + 1) ≤ 2 ^ (53 + e) := zpow_le_zpow_right₀ one_le_two (by omega)
        _ = ((2 ^ 53 : ℕ) : ℚ) * 2 ^ e := by
          rw [zpow_add₀ two_ne_zero]
          norm_num
    exact_mod_cast hbound
  · refine hleast.imp_right fun he => (Nat.le_div_iff_mul_le hd).2 ((mul_le_iff hden).2 ?_)
    calc ((2 ^ 52 : ℕ) : ℚ) * 2 ^ e = 2 ^ floorLog2 num den := by
          rw [he, Nat.cast_pow, Nat.cast_ofNat, ← zpow_natCast, ← zpow_add₀ two_ne_zero]
          congr 1
          omega
      _ ≤ num / den := hlower

/-- **The pattern that is computed for a fraction is the nearest.** -/
theorem isNearest_nearestFraction : IsNearest (num / den) (nearestFraction num den) := by
  obtain ⟨m, e, hexp, hm, hl, hdiv, hle, hlt⟩ := exists_mantissa hnum hden
  have he : leastExponent ≤ e := hexp ▸ le_max_right _ _
  have hunit : (0 : ℚ) < 2 ^ e := zpow_pos two_pos e
  have hlow := patternValue_eq he hm.le hl
  have hhigh := patternValue_eq he (Nat.succ_le_of_lt hm) (hl.imp_right Nat.le_succ_of_le)
  rw [Nat.succ_eq_add_one, ← Nat.add_assoc] at hhigh
  -- the quotient that is rounded is the fraction in units of the last place
  have hquotient : ((num * 2 ^ (-e).toNat : ℕ) : ℚ) / (den * 2 ^ e.toNat : ℕ) = num / den / 2 ^ e := by
    rw [two_zpow_eq_div]
    push_cast
    field_simp
  have hround := roundQuotient_cases (Nat.mul_pos hden (Nat.two_pow_pos _)) hquotient
  rw [← hdiv] at hround
  have hbelow : (num : ℚ) / den / 2 ^ e - m = (num / den - m * 2 ^ e) / 2 ^ e := by field_simp
  have habove : ((m + 1 : ℕ) : ℚ) - num / den / 2 ^ e = ((m + 1 : ℕ) * 2 ^ e - num / den) / 2 ^ e := by field_simp
  rw [hbelow, habove, div_lt_div_iff_of_pos_right hunit, div_lt_div_iff_of_pos_right hunit, div_left_inj' hunit.ne',
    ← hlow, ← hhigh] at hround
  rw [← hlow] at hle
  rw [← hhigh] at hlt
  rw [nearestFraction, if_neg hnum.ne', nearestScaled_eq hexp, Scaled.bits_eq]
  dsimp only
  generalize (e - leastExponent).toNat = k at *
  rcases Nat.lt_or_ge (k * 2 ^ 52 + m) infinityBits with hfinite | hinfinite
  · obtain ⟨hdown, hup⟩ := isNearest_of_between hfinite hle hlt.le
    rcases hround with ⟨hm', hnear⟩ | ⟨hm', hnear⟩
    · rw [hm', min_eq_left hfinite.le]
      exact hdown (hnear.imp_right (And.imp_right fun heven => by omega))
    · rw [hm', ← Nat.add_assoc, min_eq_left hfinite]
      exact hup (hnear.imp_right (And.imp_right fun heven => by omega))
  · rw [min_eq_right (by omega)]
    exact isNearest_infinityBits ((patternValue_strictMono.monotone hinfinite).trans hle)

end

theorem nearestFraction_zero (den : ℕ) : nearestFraction 0 den = 0 := if_pos rfl

/-- **The pattern that is computed for a decimal is the nearest.** -/
theorem isNearest_nearest (c : ℕ) (e : ℤ) : IsNearest (c * 10 ^ e) (nearest c e) := by
  rcases Nat.eq_zero_or_pos c with rfl | hc
  · rw [Nat.cast_zero, zero_mul]
    exact isNearest_zero
  · have hvalue : (c : ℚ) * 10 ^ e = ((c * 10 ^ e.toNat : ℕ) : ℚ) / (10 ^ (-e).toNat : ℕ) := by
      obtain ⟨n, rfl | rfl⟩ := Int.eq_nat_or_neg e
      · simp
      · simp [div_eq_mul_inv]
    rw [nearest_eq_nearestFraction hc, hvalue]
    exact isNearest_nearestFraction (Nat.mul_pos hc (by positivity)) (by positivity)

/-! ## Literals -/

/-- A float has the sign of a literal, and no magnitude is nearer to that of the literal. -/
def Literal.RoundsTo (l : Literal) (x : Float) : Prop :=
  isNegative x = l.negative ∧ IsNearest (l.coefficient * 10 ^ l.exponent) (magnitudeBits x)

/-- **A finite float is a literal's value iff the literal rounds to it.** -/
theorem Literal.value_eq_iff_roundsTo {l : Literal} {x : Float} (hx : isFinite x) : l.value = x ↔ l.RoundsTo x := by
  have hnearest := isNearest_nearest l.coefficient l.exponent
  constructor
  · rintro rfl
    have hlt : nearest l.coefficient l.exponent < infinityBits := by
      refine lt_of_le_of_ne hnearest.1 fun hinf => ?_
      have hinfinite : ∀ negative, ¬isFinite (compose negative infinityBits) := by decide +kernel
      rw [value, hinf] at hx
      exact hinfinite _ hx
    exact ⟨isNegative_compose hlt, by rwa [value, magnitudeBits_compose hlt]⟩
  · rintro ⟨hsign, hbits⟩
    rw [value, ← hsign, hnearest.unique hbits, compose_isNegative_magnitudeBits]

/-! ## Floats -/

/-- The number that a float stands for; infinities stand for none. -/
def value? (x : Float) : Option ℚ :=
  if isFinite x then
    some (if isNegative x then -patternValue (magnitudeBits x) else patternValue (magnitudeBits x))
  else none

/-- A magnitude that equals a natural number. -/
theorem Scaled.natural?_eq_some_iff {x : Scaled} {n : ℕ} : x.natural? = some n ↔ x.value = n := by
  have hden : (x.den : ℚ) ≠ 0 := by exact_mod_cast x.den_pos.ne'
  have hvalue : x.value = n ↔ x.num = n * x.den := by
    rw [Scaled.value, ← x.num_div_den, div_eq_iff hden]
    exact_mod_cast Iff.rfl
  rw [hvalue, Scaled.natural?]
  constructor
  · intro h
    split at h
    · rename_i hmod
      rw [← Option.some.inj h]
      exact (Nat.div_mul_cancel (Nat.dvd_of_mod_eq_zero hmod)).symm
    · cases h
  · intro h
    rw [h, if_pos (Nat.mul_mod_left _ _), Nat.mul_div_cancel _ x.den_pos]

/-- **A float equals a natural number iff that is the number that it stands for.** -/
theorem natural?_eq_some_iff_value? {x : Float} {n : ℕ} : natural? x = some n ↔ value? x = some (n : ℚ) := by
  unfold natural? value? content isFinite
  dsimp only
  by_cases hfinite : magnitudeBits x < infinityBits
  · rw [if_pos hfinite, if_pos (decide_eq_true hfinite), Option.some_inj]
    dsimp only
    have hzero : (Scaled.ofBits (magnitudeBits x)).mantissa = 0 ↔ patternValue (magnitudeBits x) = 0 := by
      rw [patternValue, Scaled.value, mul_eq_zero_iff_right (zpow_pos two_pos _).ne', Nat.cast_eq_zero]
    cases isNegative x with
    | false =>
      rw [if_neg (by simp), if_neg Bool.false_ne_true, Scaled.natural?_eq_some_iff]
      rfl
    | true =>
      simp only [if_pos, Bool.true_and, bne_iff_ne, ne_eq, hzero]
      split
      · rename_i hne
        have hneg := neg_lt_zero.2 (lt_of_le_of_ne (patternValue_nonneg _) (Ne.symm hne))
        have hn : (0 : ℚ) ≤ n := n.cast_nonneg
        exact iff_of_false nofun (by linarith)
      · rename_i heq
        rw [not_not] at heq
        rw [Scaled.natural?_eq_some_iff, heq, neg_zero]
        exact heq ▸ Iff.rfl
  · rw [if_neg hfinite, if_neg (mt of_decide_eq_true hfinite)]
    by_cases hinf : magnitudeBits x = infinityBits
    · rw [if_pos hinf]
      exact iff_of_false nofun nofun
    · rw [if_neg hinf]
      exact iff_of_false nofun nofun

end SeriesFormula.Decimal
