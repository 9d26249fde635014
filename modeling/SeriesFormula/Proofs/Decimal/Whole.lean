import Mathlib.Algebra.Order.Floor.Semifield
import SeriesFormula.Proofs.Decimal.Order

/-!
# Whole numbers among the floats

The part of a float behind the point is a float itself, without any rounding (`value?_fract`), and it is zero exactly
for a whole number (`fract_beq_zero_iff`). The whole numbers from zero on that have a place among the words of 64 bits
can be taken out of their floats (`toNat_toUInt64`).
-/

namespace SeriesFormula.Decimal

open Float.Model (UnpackedFloat)
open Float.Model.UnpackedFloat (ExtendedMantissa Accuracy)

/-! ## The part behind the point -/

/-- Any mantissa of 53 bits gives a magnitude; a small one is shifted up. -/
theorem exists_patternValue {m : ℕ} {e : ℤ} (hm : m < 2 ^ 53) (he : leastExponent ≤ e) :
    ∃ bits, patternValue bits = m * 2 ^ e := by
  obtain ⟨k, rfl⟩ : ∃ k : ℕ, e = leastExponent + k := ⟨(e - leastExponent).toNat, by omega⟩
  induction k generalizing m with
  | zero => exact ⟨_, patternValue_eq he hm.le (.inl (add_zero _))⟩
  | succ k ih =>
    by_cases hlarge : 2 ^ 52 ≤ m
    · exact ⟨_, patternValue_eq he hm.le (.inr hlarge)⟩
    · obtain ⟨bits, hbits⟩ := ih (m := 2 * m) (by omega) (by omega)
      refine ⟨bits, hbits.trans ?_⟩
      rw [Nat.cast_succ, ← add_assoc, zpow_add_one₀ two_ne_zero]
      push_cast
      ring

/-- A fraction that is a magnitude is not rounded. -/
theorem patternValue_nearestFraction {num den bits : ℕ} (hden : 0 < den) (hbits : bits ≤ infinityBits)
    (h : patternValue bits = num / den) : nearestFraction num den = bits := by
  rcases Nat.eq_zero_or_pos num with rfl | hnum
  · rw [Nat.cast_zero, zero_div, ← patternValue_zero] at h
    rw [nearestFraction_zero, patternValue_strictMono.injective h]
  · exact (isNearest_nearestFraction hnum hden).unique (h ▸ isNearest_patternValue hbits)

/-- The part of a float behind the point, with its sign. It is `0.0` for a whole number, a negative one too, as the
difference between a float and its whole part is; only a number has one. -/
def fract (x : Float) : Float :=
  match content x with
  | .finite negative magnitude =>
    let behind := magnitude.num % magnitude.den
    compose (negative && behind != 0) (nearestFraction behind magnitude.den)
  | _ => 0.0 / 0.0

theorem content_of_isFinite {x : Float} (h : isFinite x) :
    content x = .finite (isNegative x) (.ofBits (magnitudeBits x)) :=
  if_pos (of_decide_eq_true h)

theorem value?_compose {negative : Bool} {bits : ℕ} (h : bits < infinityBits) :
    value? (compose negative bits) = some (if negative then -patternValue bits else patternValue bits) := by
  rw [value?, if_pos (isFinite_compose h), isNegative_compose h, magnitudeBits_compose h]

theorem one_le_patternValue_infinityBits : 1 ≤ patternValue infinityBits := by
  have hbits : Scaled.ofBits infinityBits = ⟨2 ^ 52, 972⟩ := by decide
  rw [patternValue, hbits, Scaled.value]
  exact one_le_mul_of_one_le_of_one_le (by norm_num) (one_le_zpow₀ one_le_two (by norm_num))

/-- The part behind the point of a magnitude is one. -/
theorem exists_patternValue_fract (bits : ℕ) : ∃ bits' < infinityBits,
    patternValue bits' = ((Scaled.ofBits bits).num % (Scaled.ofBits bits).den : ℕ) / (Scaled.ofBits bits).den := by
  obtain ⟨hm, he, -⟩ := exponent_ofBits bits
  generalize Scaled.ofBits bits = x at *
  have hden : (0 : ℚ) < x.den := by exact_mod_cast x.den_pos
  have hlt : ((x.num % x.den : ℕ) : ℚ) / x.den < 1 := by
    rw [div_lt_one hden]
    exact_mod_cast Nat.mod_lt _ x.den_pos
  obtain ⟨bits', hbits'⟩ : ∃ bits', patternValue bits' = ((x.num % x.den : ℕ) : ℚ) / x.den := by
    rcases le_or_gt 0 x.exponent with hexp | hexp
    · -- without a denominator nothing is left
      refine ⟨0, ?_⟩
      rw [Scaled.den_eq, Int.toNat_of_nonpos (by omega), pow_zero, Nat.mod_one, patternValue_zero, Nat.cast_zero,
        zero_div]
    · have hnum : x.num = x.mantissa := by rw [Scaled.num_eq, Int.toNat_of_nonpos hexp.le, pow_zero, mul_one]
      obtain ⟨bits', hbits'⟩ := exists_patternValue ((Nat.mod_le _ x.den).trans_lt hm) he
      refine ⟨bits', hbits'.trans ?_⟩
      rw [hnum, two_zpow_eq_div, Int.toNat_of_nonpos hexp.le, pow_zero, Scaled.den_eq, mul_one_div]
      push_cast
      rfl
  refine ⟨bits', patternValue_strictMono.lt_iff_lt.1 ?_, hbits'⟩
  rw [hbits']
  exact hlt.trans_le one_le_patternValue_infinityBits

/-- **The part behind the point is not rounded.** -/
theorem value?_fract {x : Float} {p : ℚ} (h : value? x = some p) :
    value? (fract x) = some (if isNegative x then -Int.fract (-p) else Int.fract p) := by
  have hx : isFinite x := (exists_rank?_of_value? h).1
  obtain ⟨bits, hlt, hbits⟩ := exists_patternValue_fract (magnitudeBits x)
  have hfract : patternValue bits = Int.fract (patternValue (magnitudeBits x)) := by
    rw [hbits, patternValue, Scaled.value, ← Scaled.num_div_den, Int.fract_div_natCast_eq_div_natCast_mod]
  rw [value?, if_pos hx, Option.some_inj] at h
  rw [fract, content_of_isFinite hx]
  dsimp only
  rw [patternValue_nearestFraction (Scaled.den_pos _) hlt.le hbits, value?_compose hlt, ← h]
  cases isNegative x with
  | false => exact congrArg some hfract
  | true =>
    rw [if_pos rfl, if_pos rfl, neg_neg, ← hfract, Bool.true_and]
    split
    · rfl
    · rename_i hwhole
      -- the sign that a whole number loses is that of zero
      have hnone := of_not_not (mt bne_iff_ne.2 hwhole)
      rw [hbits, hnone, Nat.cast_zero, zero_div, neg_zero]

theorem value?_zero : value? 0.0 = some 0 := natural?_eq_some_iff_value?.1 (by decide +kernel)

/-- **A float has nothing behind the point iff it is a whole number.** -/
theorem fract_beq_zero_iff {x : Float} {p : ℚ} (h : value? x = some p) : fract x == 0.0 ↔ ∃ n : ℤ, p = n := by
  rw [beq_iff_value? (value?_fract h) value?_zero]
  have hneg : (∃ n : ℤ, p = n) ↔ ∃ n : ℤ, -p = n :=
    ⟨fun ⟨n, hn⟩ => ⟨-n, by rw [hn, Int.cast_neg]⟩, fun ⟨n, hn⟩ => ⟨-n, by rw [Int.cast_neg, ← hn, neg_neg]⟩⟩
  cases isNegative x with
  | false =>
    rw [if_neg Bool.false_ne_true, Int.fract_eq_zero_iff]
    exact ⟨fun ⟨n, hn⟩ => ⟨n, hn.symm⟩, fun ⟨n, hn⟩ => ⟨n, hn.symm⟩⟩
  | true =>
    rw [if_pos rfl, neg_eq_zero, Int.fract_eq_zero_iff, hneg]
    exact ⟨fun ⟨n, hn⟩ => ⟨n, hn.symm⟩, fun ⟨n, hn⟩ => ⟨n, hn.symm⟩⟩

/-! ## Words -/

/-- Shifting a mantissa to the right divides it. -/
theorem mantissa_shiftRight (em : ExtendedMantissa) (k : ℕ) : (em >>> k).mantissa = em.mantissa / 2 ^ k := by
  change (k.repeat ExtendedMantissa.shiftRightOne em).mantissa = _
  induction k with
  | zero => rw [pow_zero, Nat.div_one]; rfl
  | succ k ih =>
    rw [pow_succ, ← Nat.div_div_eq_div_mul, ← ih]
    rfl

/-- The whole part of a magnitude, as it is taken out. -/
theorem roundToInt_eq (m : ℕ) (e : ℤ) :
    UnpackedFloat.roundToInt .positive m e = ((⟨m, e⟩ : Scaled).num / (⟨m, e⟩ : Scaled).den : ℕ) := by
  have hshift : (0 - (e - ((e - 0).toNat : ℤ))).toNat = (-e).toNat := by omega
  change ((ExtendedMantissa.ofMantissaAndAccuracy (m <<< (e - 0).toNat) .exact >>>
    (0 - (e - ((e - 0).toNat : ℤ))).toNat).mantissa : ℤ) = _
  rw [mantissa_shiftRight, hshift, sub_zero]
  change ((m <<< e.toNat / 2 ^ (-e).toNat : ℕ) : ℤ) = _
  rw [Nat.shiftLeft_eq]
  rfl

theorem Scaled.div_of_natural? {s : Scaled} {n : ℕ} (h : s.natural? = some n) : s.num / s.den = n := by
  unfold natural? at h
  split at h
  · exact Option.some.inj h
  · cases h

/-- **A whole number can be taken out of its float.** -/
theorem toNat_toUInt64 {x : Float} {n : ℕ} (h : value? x = some (n : ℚ)) (hn : n < 2 ^ 64) : x.toUInt64.toNat = n := by
  have hx : isFinite x := (exists_rank?_of_value? h).1
  have hlt : magnitudeBits x < infinityBits := of_decide_eq_true hx
  have hu := unpacks x
  rw [value?, if_pos hx, Option.some_inj] at h
  change (UInt64.ofNatClamp (x.toModel.unpack.toInt 0 (UInt64.size - 1)).toNat).toNat = n
  generalize x.toModel.unpack = u at hu
  have hclamp : ∀ i : ℤ, i = n → (UInt64.ofNatClamp i.toNat).toNat = n := by
    rintro _ rfl
    rw [Int.toNat_natCast, UInt64.ofNatClamp, dif_pos (show n < UInt64.size from hn)]
    rfl
  cases hu with
  | nan h' => omega
  | infinite h' => omega
  | zero h' =>
    rw [h', patternValue_zero, neg_zero, ite_self] at h
    exact hclamp 0 (by exact_mod_cast h)
  | @finite m e hm _ hb =>
    have hpos : 0 < patternValue (magnitudeBits x) :=
      (patternValue_nonneg 0).trans_lt (patternValue_strictMono (pos_of_ofBits hb hm))
    cases hnegative : isNegative x with
    | true =>
      rw [hnegative, if_pos rfl] at h
      exact absurd h ((neg_lt_zero.2 hpos).trans_le n.cast_nonneg).ne
    | false =>
      have hsign : sign x = .positive := by
        rw [sign, hnegative]
        rfl
      rw [hnegative, if_neg Bool.false_ne_true, patternValue, hb, ← Scaled.natural?_eq_some_iff] at h
      rw [hsign]
      exact hclamp _ ((roundToInt_eq m e).trans (congrArg Nat.cast (Scaled.div_of_natural? h)))

end SeriesFormula.Decimal
