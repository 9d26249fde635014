import SeriesFormula.Decimal.Binary64

/-!
# Floats and their patterns

A float is its pattern, where all patterns that stand for no number are taken as one. Packing what was unpacked
therefore loses nothing (`pack_unpack`), and a float is composed of its sign and its magnitude's pattern
(`compose_isNegative_magnitudeBits`). A magnitude below infinity can be read back from a float with it
(`magnitudeBits_compose`), which is finite (`isFinite_compose`).
-/

namespace SeriesFormula.Decimal

/-! ## Packing what was unpacked -/

section Packing

open Float.Model Float.Model.UnpackedFloat

/-- A pattern is its sign, its exponent and its mantissa side by side. -/
theorem packComponents_parts (b : BitVec Format.binary64.numBits) :
    packComponents .binary64 (.ofBitVec (unpackSign b)) (unpackExponent b) (unpackMantissa b) = b := by
  have hsign : ∀ s : BitVec 1, (Sign.ofBitVec s).toBitVec = s := by decide
  change ((Sign.ofBitVec (BitVec.extractLsb' 63 1 b)).toBitVec ++ BitVec.extractLsb' 52 11 b ++
    BitVec.extractLsb' 0 52 b : BitVec 64) = b
  rw [hsign]
  ext i hi
  have hbit : ∀ j, j = i → b.getLsbD j = b[i] := by
    rintro _ rfl
    exact BitVec.getLsbD_eq_getElem hi
  simp only [BitVec.getElem_append, BitVec.getElem_extractLsb']
  split
  · exact hbit _ (by omega)
  · split <;> exact hbit _ (by omega)

/-- A number below the first one with 53 bits keeps the exponent zero. -/
theorem pack_subnormal (s : Sign) (m : BitVec 52) (hm : 0 < m.toNat) :
    UnpackedFloat.pack .binary64 (.finite s m.toNat (-1074) hm) = packComponents .binary64 s 0#11 m := by
  have hlog : m.toNat.log2 + 1 ≠ Format.binary64.mantissaBits := by
    have hu : m.toNat.log2 < 52 := (Nat.log2_lt (Nat.pos_iff_ne_zero.1 hm)).2 m.isLt
    have h53 : Format.binary64.mantissaBits = 53 := rfl
    omega
  unfold UnpackedFloat.pack
  dsimp only
  rw [if_neg (by decide), if_neg hlog, BitVec.ofNat_toNat]
  congr 1

/-- A number with 53 bits gives the first of them away. -/
theorem pack_normal (s : Sign) (e : BitVec 11) (m : BitVec 52) (he : e.toNat < 2047)
    (hm : 0 < (1#1 ++ m).toNat) :
    UnpackedFloat.pack .binary64 (.finite s (1#1 ++ m).toNat ((e.toNat : Int) - 1075) hm) =
      packComponents .binary64 s e m := by
  have hmlt := m.isLt
  have hmant : (1#1 ++ m).toNat = 2 ^ 52 + m.toNat := by
    rw [BitVec.toNat_append, ← Nat.shiftLeft_add_eq_or_of_lt hmlt]
    simp [Nat.shiftLeft_eq]
  have hlog : (1#1 ++ m).toNat.log2 + 1 = Format.binary64.mantissaBits := by
    have hl : 52 ≤ (1#1 ++ m).toNat.log2 := (Nat.le_log2 (by omega)).2 (by omega)
    have hu : (1#1 ++ m).toNat.log2 < 53 := (Nat.log2_lt (by omega)).2 (by omega)
    have h53 : Format.binary64.mantissaBits = 53 := rfl
    omega
  have hexp : ((e.toNat : Int) - 1075 + Format.binary64.exponentBias +
      Format.binary64.mantissaBitsWithoutImplicit).toNat = e.toNat := by
    have hbias : (Format.binary64.exponentBias : Int) = 1023 := rfl
    have hbits : (Format.binary64.mantissaBitsWithoutImplicit : Int) = 52 := rfl
    omega
  unfold UnpackedFloat.pack
  dsimp only
  rw [hexp, if_neg (by change ¬2048 ≤ e.toNat + 1; omega), if_pos hlog]
  congr 1
  · rw [BitVec.ofNat_toNat]
    exact BitVec.setWidth_eq e
  · apply BitVec.eq_of_toNat_eq
    rw [BitVec.toNat_ofNat, hmant]
    omega

/-- Nothing is lost in a pattern that stands for a number or an infinity, or is the one for no number. -/
theorem pack_unpack {b : BitVec Format.binary64.numBits} (hb : Format.binary64.Valid b) :
    UnpackedFloat.pack .binary64 (UnpackedFloat.unpack .binary64 b) = b := by
  have hparts := packComponents_parts b
  unfold UnpackedFloat.unpack
  dsimp only
  by_cases hexp : unpackExponent b = -1#_
  · rw [if_pos hexp]
    by_cases hmant : unpackMantissa b = 0#_
    · rw [if_pos hmant]
      rwa [hexp, hmant] at hparts
    · rw [if_neg hmant]
      exact (hb.eq_packedNaN hexp hmant).symm
  · rw [if_neg hexp]
    by_cases hzero : unpackExponent b = 0#_
    · rw [if_pos hzero]
      by_cases hmant : unpackMantissa b = 0#_
      · rw [dif_pos hmant]
        rwa [hzero, hmant] at hparts
      · rw [dif_neg hmant, hzero]
        rw [hzero] at hparts
        exact (pack_subnormal _ _ _).trans hparts
    · rw [if_neg hzero]
      have he : (unpackExponent b).toNat < 2047 := by
        have hlt : (unpackExponent b).toNat < 2048 := (unpackExponent b).isLt
        have hne : (unpackExponent b).toNat ≠ 2047 := fun h => hexp (BitVec.eq_of_toNat_eq h)
        omega
      exact (pack_normal _ _ _ he _).trans hparts

end Packing

/-! ## Floats -/

/-- Reading a float's pattern gives the float back. -/
theorem ofBits_toBits (x : Float) : Float.ofBits x.toBits = x := by
  obtain ⟨bits, hvalid⟩ := x
  have hmodel : ∀ (other : UInt64) (hother : Float.Model.Format.binary64.Valid other.toBitVec), other = bits →
      Float.Model.mk other hother = ⟨bits, hvalid⟩ := by
    rintro _ _ rfl
    rfl
  exact congrArg Float.ofModel (hmodel _ _ (congrArg UInt64.ofBitVec (pack_unpack hvalid)))

open Float.Model Float.Model.UnpackedFloat in
/-- The pattern of a number is that of its float. -/
theorem toBits_ofBits {b : UInt64} (h : b.toNat % Nat.pow 2 63 < infinityBits) : (Float.ofBits b).toBits = b := by
  have hvalid : Format.binary64.Valid b.toBitVec := by
    constructor
    intro hexp
    rw [Nat.pow_eq] at h
    have hfield : BitVec.extractLsb' 52 11 b.toBitVec = -1#11 := hexp
    have htoNat := congrArg BitVec.toNat hfield
    rw [BitVec.extractLsb'_toNat] at htoNat
    have hb : b.toBitVec.toNat = b.toNat := rfl
    rw [hb, Nat.shiftRight_eq_div_pow] at htoNat
    have hinf : infinityBits = 2047 * 2 ^ 52 := rfl
    have hone : (-1#11 : BitVec 11).toNat = 2047 := rfl
    omega
  exact congrArg UInt64.ofBitVec (pack_unpack hvalid)

section Compose

variable {negative : Bool} {bits : Nat} (h : bits < infinityBits)
include h

theorem toNat_signed : (UInt64.ofNat (if negative then Nat.pow 2 63 + bits else bits)).toNat =
    if negative then Nat.pow 2 63 + bits else bits := by
  have hinf : infinityBits = 2047 * 2 ^ 52 := rfl
  rw [UInt64.toNat_ofNat']
  cases negative with
  | true =>
    show (2 ^ 63 + bits) % 2 ^ 64 = 2 ^ 63 + bits
    omega
  | false =>
    show bits % 2 ^ 64 = bits
    omega

theorem toNat_toBits_compose :
    (compose negative bits).toBits.toNat = if negative then Nat.pow 2 63 + bits else bits := by
  have hsigned := @toNat_signed negative bits h
  have hinf : infinityBits = 2047 * 2 ^ 52 := rfl
  rw [compose, toBits_ofBits, hsigned]
  rw [hsigned, Nat.pow_eq]
  split <;> omega

/-- A magnitude below infinity is not changed by its sign. -/
theorem magnitudeBits_compose : magnitudeBits (compose negative bits) = bits := by
  have hinf : infinityBits = 2047 * 2 ^ 52 := rfl
  rw [magnitudeBits, toNat_toBits_compose h, Nat.pow_eq]
  split <;> omega

theorem isNegative_compose : isNegative (compose negative bits) = negative := by
  have hinf : infinityBits = 2047 * 2 ^ 52 := rfl
  rw [isNegative, toNat_toBits_compose h, Nat.pow_eq]
  cases negative with
  | true => exact decide_eq_true (Nat.le_add_right _ _)
  | false => exact decide_eq_false (show ¬2 ^ 63 ≤ bits by omega)

/-- A magnitude below infinity is that of a finite float. -/
theorem isFinite_compose : isFinite (compose negative bits) := by
  rw [isFinite, magnitudeBits_compose h]
  exact decide_eq_true h

end Compose

/-- **A float is composed of its sign and its magnitude's pattern.** -/
theorem compose_isNegative_magnitudeBits (x : Float) : compose (isNegative x) (magnitudeBits x) = x := by
  have hlt := x.toBits.toNat_lt
  have hbits : (if isNegative x then Nat.pow 2 63 + magnitudeBits x else magnitudeBits x) = x.toBits.toNat := by
    unfold isNegative magnitudeBits
    split <;> rename_i h <;> simp only [decide_eq_true_eq, Nat.pow_eq] at h ⊢ <;> omega
  rw [compose, hbits, UInt64.ofNat_toNat, ofBits_toBits]

end SeriesFormula.Decimal
