import SeriesFormula.Proofs.Decimal.Value

/-!
# The order of floats

A float that is a number or an infinity has a place (`rank?`): its magnitude's pattern with its sign, so that both zeros
have the same one. Comparisons of floats are those of their places (`le_iff_rank?`, `beq_iff_rank?`), which for finite
floats are those of the numbers that they stand for (`le_iff_value?`); what is no number compares with nothing, and
neither do its differences (`isNaN_sub`).

`unpacks` says what the parts of a float are that its operations work on.
-/

namespace SeriesFormula.Decimal

open Float.Model (UnpackedFloat)
open Float.Model.UnpackedFloat (Sign unpackSign unpackExponent unpackMantissa)

/-! ## The parts of a float -/

def sign (x : Float) : Sign := if isNegative x then .negative else .positive

/-- What the parts of a float are. -/
inductive Unpacks (x : Float) : UnpackedFloat → Prop
  | nan : infinityBits < magnitudeBits x → Unpacks x .notANumber
  | infinite : magnitudeBits x = infinityBits → Unpacks x (.infinity (sign x))
  | zero : magnitudeBits x = 0 → Unpacks x (.zero (sign x))
  | finite {m : ℕ} {e : ℤ} (hm : 0 < m) : magnitudeBits x < infinityBits → Scaled.ofBits (magnitudeBits x) = ⟨m, e⟩ →
      Unpacks x (.finite (sign x) m e hm)

section Fields

variable (b : BitVec 64)

theorem toNat_unpackExponent :
    (@unpackExponent .binary64 b).toNat = b.toNat % 2 ^ 63 / 2 ^ 52 := by
  change (BitVec.extractLsb' 52 11 b).toNat = _
  rw [BitVec.extractLsb'_toNat, Nat.shiftRight_eq_div_pow]
  omega

theorem toNat_unpackMantissa :
    (@unpackMantissa .binary64 b).toNat = b.toNat % 2 ^ 63 % 2 ^ 52 := by
  change (BitVec.extractLsb' 0 52 b).toNat = _
  rw [BitVec.extractLsb'_toNat, Nat.shiftRight_zero]
  omega

theorem ofBitVec_unpackSign :
    Sign.ofBitVec (@unpackSign .binary64 b) = if 2 ^ 63 ≤ b.toNat then .negative else .positive := by
  have hlt := b.isLt
  have hbit : (@unpackSign .binary64 b).toNat = b.toNat / 2 ^ 63 := by
    change (BitVec.extractLsb' 63 1 b).toNat = _
    rw [BitVec.extractLsb'_toNat, Nat.shiftRight_eq_div_pow]
    omega
  unfold Sign.ofBitVec
  by_cases h : 2 ^ 63 ≤ b.toNat
  · rw [if_pos h, if_neg fun hzero => ?_]
    have := congrArg BitVec.toNat hzero
    rw [hbit] at this
    change _ = 0 at this
    omega
  · rw [if_neg h, if_pos (BitVec.eq_of_toNat_eq ?_)]
    rw [hbit]
    change _ = 0
    omega

end Fields

section Branches

variable {x : Float}

theorem toNat_exponent : (@unpackExponent .binary64 x.toBits.toBitVec).toNat = magnitudeBits x / 2 ^ 52 :=
  toNat_unpackExponent _

theorem toNat_mantissa : (@unpackMantissa .binary64 x.toBits.toBitVec).toNat = magnitudeBits x % 2 ^ 52 :=
  toNat_unpackMantissa _

theorem exponent_eq_ones_iff : @unpackExponent .binary64 x.toBits.toBitVec = -1#_ ↔ magnitudeBits x / 2 ^ 52 = 2047 := by
  rw [← toNat_exponent, ← BitVec.toNat_inj]
  rfl

theorem exponent_eq_zero_iff : @unpackExponent .binary64 x.toBits.toBitVec = 0#_ ↔ magnitudeBits x / 2 ^ 52 = 0 := by
  rw [← toNat_exponent, ← BitVec.toNat_inj]
  rfl

theorem mantissa_eq_zero_iff : @unpackMantissa .binary64 x.toBits.toBitVec = 0#_ ↔ magnitudeBits x % 2 ^ 52 = 0 := by
  rw [← toNat_mantissa, ← BitVec.toNat_inj]
  rfl

/-- A mantissa of 53 bits begins with a bit that is not in the pattern. -/
theorem toNat_one_append_mantissa :
    (1#1 ++ @unpackMantissa .binary64 x.toBits.toBitVec).toNat = magnitudeBits x % 2 ^ 52 + 2 ^ 52 := by
  rw [BitVec.toNat_append, ← Nat.shiftLeft_add_eq_or_of_lt (BitVec.isLt _), toNat_mantissa, Nat.add_comm]
  rfl

theorem ofBitVec_sign : Sign.ofBitVec (@unpackSign .binary64 x.toBits.toBitVec) = sign x := by
  rw [ofBitVec_unpackSign]
  unfold sign isNegative
  simp only [decide_eq_true_eq]
  rfl

end Branches

/-- The parts of a float are what its exponent and its mantissa decide. -/
theorem unpacks (x : Float) : Unpacks x x.toModel.unpack := by
  have hlt : magnitudeBits x < 2 ^ 63 := Nat.mod_lt _ (by decide)
  have hinf := infinityBits_eq
  have hbits := Scaled.ofBits_eq (magnitudeBits x)
  change Unpacks x (UnpackedFloat.unpack .binary64 x.toBits.toBitVec)
  unfold UnpackedFloat.unpack
  dsimp only
  rw [ofBitVec_sign]
  by_cases hones : @unpackExponent .binary64 x.toBits.toBitVec = -1#_
  · have hfull := exponent_eq_ones_iff.1 hones
    rw [if_pos hones]
    by_cases hmantissa : @unpackMantissa .binary64 x.toBits.toBitVec = 0#_
    · have hzero := mantissa_eq_zero_iff.1 hmantissa
      rw [if_pos hmantissa]
      exact .infinite (by omega)
    · have hpos := mt mantissa_eq_zero_iff.2 hmantissa
      rw [if_neg hmantissa]
      exact .nan (by omega)
  · have hfull := mt exponent_eq_ones_iff.2 hones
    rw [if_neg hones]
    by_cases hzeros : @unpackExponent .binary64 x.toBits.toBitVec = 0#_
    · have hleast := exponent_eq_zero_iff.1 hzeros
      rw [if_pos hleast] at hbits
      rw [if_pos hzeros]
      by_cases hmantissa : @unpackMantissa .binary64 x.toBits.toBitVec = 0#_
      · have hzero := mantissa_eq_zero_iff.1 hmantissa
        rw [dif_pos hmantissa]
        exact .zero (by omega)
      · rw [dif_neg hmantissa]
        refine .finite _ (by omega) ?_
        rw [hbits, toNat_mantissa, hzeros]
        rfl
    · rw [if_neg (mt exponent_eq_zero_iff.2 hzeros)] at hbits
      rw [if_neg hzeros]
      refine .finite _ (by omega) ?_
      have hexponent : ((magnitudeBits x / 2 ^ 52 : ℕ) : ℤ) - (Float.Model.Format.binary64.exponentBias +
          Float.Model.Format.binary64.mantissaBitsWithoutImplicit) =
            (magnitudeBits x / 2 ^ 52 : ℕ) - 1 + leastExponent := by
        rw [sub_add_eq_add_sub, sub_add_eq_sub_sub]
        change _ - (1023 : ℤ) - 52 = _ + -1074 - 1
        omega
      rw [hbits, toNat_one_append_mantissa, toNat_exponent, hexponent]

/-! ## Places -/

/-- The place of a float among all floats, of which the infinities are the first and the last. -/
def rank? (x : Float) : Option ℤ :=
  if magnitudeBits x ≤ infinityBits then some ((sign x).apply (magnitudeBits x)) else none

/-- The exponents decide before the mantissas do, like the upper bits of a pattern before the lower. -/
theorem compare_ofBits {a b m n : ℕ} {e f : ℤ} (ha : Scaled.ofBits a = ⟨m, e⟩) (hb : Scaled.ofBits b = ⟨n, f⟩) :
    (compare e f).then (compare m n) = compare a b := by
  obtain ⟨m', e', ha', he, hm, hl, hbits⟩ := patternValue_ofBits a
  obtain ⟨n', f', hb', hf, hn, hl', hbits'⟩ := patternValue_ofBits b
  obtain ⟨rfl, rfl⟩ := Scaled.mk.inj (ha.symm.trans ha')
  obtain ⟨rfl, rfl⟩ := Scaled.mk.inj (hb.symm.trans hb')
  rcases lt_trichotomy e f with hlt | rfl | hgt
  · rw [compare_lt_iff_lt.2 hlt, Ordering.lt_then, eq_comm, compare_lt_iff_lt]
    omega
  · rw [compare_eq_iff_eq.2 rfl, Ordering.eq_then]
    rcases lt_trichotomy m n with hlt | rfl | hgt
    · rw [compare_lt_iff_lt.2 hlt, eq_comm, compare_lt_iff_lt]
      omega
    · rw [compare_eq_iff_eq.2 rfl, compare_eq_iff_eq.2 (hbits.trans hbits'.symm)]
    · rw [compare_gt_iff_gt.2 hgt, eq_comm, compare_gt_iff_gt]
      omega
  · rw [compare_gt_iff_gt.2 hgt, Ordering.gt_then, eq_comm, compare_gt_iff_gt]
    omega

theorem pos_of_ofBits {a m : ℕ} {e : ℤ} (ha : Scaled.ofBits a = ⟨m, e⟩) (hm : 0 < m) : 0 < a := by
  obtain ⟨m', e', ha', -, -, -, hbits⟩ := patternValue_ofBits a
  obtain ⟨rfl, rfl⟩ := Scaled.mk.inj (ha.symm.trans ha')
  omega

/-- The sign of the greater magnitude decides. -/
theorem compare_apply {a b : ℕ} (h : b < a) (t : Sign) :
    compare (Sign.apply .positive a) (t.apply b) = .gt ∧ compare (Sign.apply .negative a) (t.apply b) = .lt ∧
    compare (t.apply b) (Sign.apply .positive a) = .lt ∧ compare (t.apply b) (Sign.apply .negative a) = .gt := by
  rw [compare_gt_iff_gt, compare_lt_iff_lt, compare_lt_iff_lt, compare_gt_iff_gt]
  cases t <;> dsimp only [Sign.apply] <;> omega

theorem compare_neg_neg (a b : ℕ) : compare (-(a : ℤ)) (-b) = (compare a b).swap := by
  rcases lt_trichotomy a b with hlt | rfl | hgt
  · rw [compare_lt_iff_lt.2 hlt, Ordering.swap_lt, compare_gt_iff_gt]
    omega
  · rw [compare_eq_iff_eq.2 rfl, compare_eq_iff_eq.2 rfl, Ordering.swap_eq]
  · rw [compare_gt_iff_gt.2 hgt, Ordering.swap_gt, compare_lt_iff_lt]
    omega

theorem compare_natCast (a b : ℕ) : compare (a : ℤ) b = compare a b := by
  rcases lt_trichotomy a b with hlt | rfl | hgt
  · rw [compare_lt_iff_lt.2 hlt, compare_lt_iff_lt]
    omega
  · rw [compare_eq_iff_eq.2 rfl, compare_eq_iff_eq.2 rfl]
  · rw [compare_gt_iff_gt.2 hgt, compare_gt_iff_gt]
    omega

/-- A float that is a number or an infinity has a place. -/
theorem rank?_of_le {x : Float} (h : magnitudeBits x ≤ infinityBits) :
    rank? x = some ((sign x).apply (magnitudeBits x)) := if_pos h

theorem rank?_of_lt {x : Float} (h : infinityBits < magnitudeBits x) : rank? x = none := if_neg (not_le_of_gt h)

section Operands

variable {x : Float} {u : UnpackedFloat}

/-- An infinity on the left. -/
theorem compare_infinite (s : Sign) (hx : Unpacks x u) :
    (UnpackedFloat.infinity s).compare u = (rank? x).map (compare (s.apply infinityBits)) := by
  cases hx with
  | nan h =>
    rw [rank?_of_lt h]
    cases s <;> rfl
  | infinite h =>
    rw [rank?_of_le h.le, h]
    cases s <;> cases sign x <;> rfl
  | zero h =>
    rw [rank?_of_le (h ▸ Nat.zero_le _), h]
    cases s <;> cases sign x <;> rfl
  | finite hm h ha =>
    rw [rank?_of_le h.le]
    obtain ⟨hpos, hneg, -⟩ := compare_apply h (sign x)
    cases s with
    | positive => exact congrArg some hpos.symm
    | negative => exact congrArg some hneg.symm

/-- A zero on the left. -/
theorem compare_zero (s : Sign) (hx : Unpacks x u) :
    (UnpackedFloat.zero s).compare u = (rank? x).map (compare (s.apply (0 : ℕ))) := by
  cases hx with
  | nan h =>
    rw [rank?_of_lt h]
    rfl
  | infinite h =>
    rw [rank?_of_le h.le, h]
    cases s <;> cases sign x <;> rfl
  | zero h =>
    rw [rank?_of_le (h ▸ Nat.zero_le _), h]
    cases s <;> cases sign x <;> rfl
  | finite hm h ha =>
    rw [rank?_of_le h.le]
    obtain ⟨-, -, hpos, hneg⟩ := compare_apply (pos_of_ofBits ha hm) s
    cases sign x with
    | positive => exact congrArg some hpos.symm
    | negative => exact congrArg some hneg.symm

/-- Another number on the left. -/
theorem compare_finite (s : Sign) {bits m : ℕ} {e : ℤ} (hm : 0 < m) (hbits : bits < infinityBits)
    (hscaled : Scaled.ofBits bits = ⟨m, e⟩) (hx : Unpacks x u) :
    (UnpackedFloat.finite s m e hm).compare u = (rank? x).map (compare (s.apply bits)) := by
  have hpos := pos_of_ofBits hscaled hm
  cases hx with
  | nan h =>
    rw [rank?_of_lt h]
    rfl
  | infinite h =>
    rw [rank?_of_le h.le, h]
    obtain ⟨-, -, hpositive, hnegative⟩ := compare_apply hbits s
    cases sign x with
    | positive => exact congrArg some hpositive.symm
    | negative => exact congrArg some hnegative.symm
  | zero h =>
    rw [rank?_of_le (h ▸ Nat.zero_le _), h]
    obtain ⟨hpositive, hnegative, -⟩ := compare_apply hpos (sign x)
    cases s with
    | positive => exact congrArg some hpositive.symm
    | negative => exact congrArg some hnegative.symm
  | finite hn h ha =>
    rw [rank?_of_le h.le]
    have hcompare := compare_ofBits hscaled ha
    cases s with
    | positive =>
      cases sign x with
      | positive => exact congrArg some (hcompare.trans (compare_natCast _ _).symm)
      | negative => exact congrArg some (compare_gt_iff_gt.2 (by dsimp only [Sign.apply]; omega)).symm
    | negative =>
      cases sign x with
      | positive => exact congrArg some (compare_lt_iff_lt.2 (by dsimp only [Sign.apply]; omega)).symm
      | negative => exact congrArg some ((congrArg Ordering.swap hcompare).trans (compare_neg_neg _ _).symm)

end Operands

/-- **Comparing floats is comparing their places.** -/
theorem compare_unpack (x y : Float) : x.toModel.unpack.compare y.toModel.unpack =
    (rank? x).bind fun a => (rank? y).map (compare a) := by
  have hx := unpacks x
  have hy := unpacks y
  generalize x.toModel.unpack = u at hx
  cases hx with
  | nan h =>
    rw [rank?_of_lt h]
    rfl
  | infinite h =>
    rw [rank?_of_le h.le, h]
    exact compare_infinite _ hy
  | zero h =>
    rw [rank?_of_le (h ▸ Nat.zero_le _), h]
    exact compare_zero _ hy
  | finite hm h ha =>
    rw [rank?_of_le h.le]
    exact compare_finite _ hm h ha hy

/-! ## Comparisons -/

variable {x y z : Float}

theorem le_iff_rank? : x ≤ y ↔ ∃ a b, rank? x = some a ∧ rank? y = some b ∧ a ≤ b := by
  change decide ((x.toModel.unpack.compare y.toModel.unpack).any Ordering.isLE) ↔ _
  rw [compare_unpack]
  cases rank? x with
  | none => simp
  | some a =>
    cases rank? y with
    | none => simp
    | some b => simp [Ordering.isLE_iff_ne_gt, compare_le_iff_le]

theorem beq_iff_rank? : x == y ↔ ∃ a, rank? x = some a ∧ rank? y = some a := by
  change (x.toModel.unpack.compare y.toModel.unpack == some .eq) ↔ _
  rw [compare_unpack]
  cases rank? x with
  | none => simp
  | some a =>
    cases rank? y with
    | none => simp
    | some b => simp [@eq_comm ℤ b]

theorem lt_iff_rank? : x < y ↔ ∃ a b, rank? x = some a ∧ rank? y = some b ∧ a < b := by
  change decide (x.toModel.unpack.compare y.toModel.unpack == some .lt) ↔ _
  rw [compare_unpack]
  cases rank? x with
  | none => simp
  | some a =>
    cases rank? y with
    | none => simp
    | some b => simp [compare_lt_iff_lt]

/-- What is no number has no place. -/
theorem isNaN_iff_rank? : x.isNaN ↔ rank? x = none := by
  have h := unpacks x
  have hplace : rank? x = none ↔ ¬magnitudeBits x ≤ infinityBits := ite_eq_right_iff.trans (by simp)
  change x.toModel.unpack.isNaN ↔ _
  rw [hplace]
  generalize x.toModel.unpack = u at h
  cases h with
  | nan h => exact iff_of_true rfl (not_le_of_gt h)
  | infinite h => exact iff_of_false nofun (not_not_intro h.le)
  | zero h => exact iff_of_false nofun (not_not_intro (h ▸ Nat.zero_le _))
  | finite hm h ha => exact iff_of_false nofun (not_not_intro h.le)

theorem isFinite_eq : x.isFinite = isFinite x := by
  have h := unpacks x
  change x.toModel.unpack.isFinite = _
  generalize x.toModel.unpack = u at h
  cases h with
  | nan h => exact (decide_eq_false (not_lt_of_gt h)).symm
  | infinite h => exact (decide_eq_false h.not_lt).symm
  | zero h => exact (decide_eq_true (h ▸ (by decide : 0 < infinityBits))).symm
  | finite hm h ha => exact (decide_eq_true h).symm

/-- The order of floats is transitive. -/
theorem float_le_trans (h : x ≤ y) (h' : y ≤ z) : x ≤ z := by
  obtain ⟨a, b, ha, hb, hab⟩ := le_iff_rank?.1 h
  obtain ⟨b', c, hb', hc, hbc⟩ := le_iff_rank?.1 h'
  obtain rfl : b = b' := Option.some.inj (hb.symm.trans hb')
  exact le_iff_rank?.2 ⟨a, c, ha, hc, hab.trans hbc⟩

/-- A float equals itself unless it is no number. -/
theorem beq_self_iff : x == x ↔ ¬x.isNaN := by
  rw [beq_iff_rank?, isNaN_iff_rank?]
  simp only [and_self, ← Option.isSome_iff_exists, Option.isSome_iff_ne_none, ne_eq]

/-! ### What is no number -/

theorem isNaN_iff_unpack : x.isNaN ↔ x.toModel.unpack = .notANumber := by
  change x.toModel.unpack.isNaN ↔ _
  cases x.toModel.unpack with
  | notANumber => exact iff_of_true rfl rfl
  | infinity | zero | finite => exact iff_of_false nofun nofun

theorem unpack_pack_notANumber : (Float.Model.pack .notANumber).unpack = .notANumber := rfl

/-- What is no number equals nothing. -/
theorem not_isNaN_of_beq (h : x == y) : ¬x.isNaN := by
  obtain ⟨a, ha, -⟩ := beq_iff_rank?.1 h
  rw [isNaN_iff_rank?, ha]
  exact nofun

/-- What is no number is below nothing. -/
theorem not_isNaN_of_le (h : x ≤ y) : ¬x.isNaN := by
  obtain ⟨a, -, ha, -⟩ := le_iff_rank?.1 h
  rw [isNaN_iff_rank?, ha]
  exact nofun

theorem isNaN_sub (h : x.isNaN) (y : Float) : (x - y).isNaN := by
  rw [isNaN_iff_unpack] at h ⊢
  change (Float.Model.pack (UnpackedFloat.sub .binary64 x.toModel.unpack y.toModel.unpack)).unpack = _
  rw [h]
  exact unpack_pack_notANumber

theorem isNaN_abs (h : x.isNaN) : x.abs.isNaN := by
  rw [isNaN_iff_unpack] at h ⊢
  change (Float.Model.pack x.toModel.unpack.abs).unpack = _
  rw [h]
  exact unpack_pack_notANumber

/-! ## Values -/

/-- The number at a place between the infinities. -/
def placeValue : ℤ → ℚ
  | .ofNat n => patternValue n
  | .negSucc n => -patternValue (n + 1)

theorem placeValue_neg (n : ℕ) : placeValue (-n) = -patternValue n := by
  cases n with
  | zero => exact patternValue_zero.trans (by rw [patternValue_zero, neg_zero])
  | succ n => rfl

theorem placeValue_lt {a b : ℤ} (hab : a < b) : placeValue a < placeValue b := by
  cases a with
  | ofNat n =>
    cases b with
    | ofNat m => exact patternValue_strictMono (Int.ofNat_lt.1 hab)
    | negSucc m => exact absurd (hab.trans (Int.negSucc_lt_zero m)) (Int.not_lt.2 (Int.natCast_nonneg n))
  | negSucc n =>
    have hneg : -patternValue (n + 1) < 0 :=
      neg_lt_zero.2 ((patternValue_nonneg 0).trans_lt (patternValue_strictMono n.succ_pos))
    cases b with
    | ofNat m => exact hneg.trans_le (patternValue_nonneg m)
    | negSucc m => exact neg_lt_neg (patternValue_strictMono (by omega))

/-- Places are ordered like the numbers at them. -/
theorem placeValue_lt_iff {a b : ℤ} : placeValue a < placeValue b ↔ a < b :=
  StrictMono.lt_iff_lt fun _ _ => placeValue_lt

theorem placeValue_le_iff {a b : ℤ} : placeValue a ≤ placeValue b ↔ a ≤ b :=
  StrictMono.le_iff_le fun _ _ => placeValue_lt

theorem placeValue_inj {a b : ℤ} : placeValue a = placeValue b ↔ a = b :=
  StrictMono.injective (fun _ _ => placeValue_lt) |>.eq_iff

/-- A finite float stands for the number at its place. -/
theorem exists_rank?_of_value? {p : ℚ} (h : value? x = some p) :
    isFinite x ∧ ∃ a, rank? x = some a ∧ placeValue a = p := by
  unfold value? at h
  split at h
  · rename_i hx
    have hle : magnitudeBits x ≤ infinityBits := le_of_lt (of_decide_eq_true hx)
    refine ⟨hx, _, if_pos hle, ?_⟩
    rw [← Option.some.inj h]
    unfold sign
    cases isNegative x with
    | false => rfl
    | true => exact placeValue_neg _
  · cases h

/-- **Finite floats are ordered like the numbers that they stand for.** -/
theorem le_iff_value? {p q : ℚ} (hx : value? x = some p) (hy : value? y = some q) : x ≤ y ↔ p ≤ q := by
  obtain ⟨-, a, ha, rfl⟩ := exists_rank?_of_value? hx
  obtain ⟨-, b, hb, rfl⟩ := exists_rank?_of_value? hy
  simp [le_iff_rank?, ha, hb, placeValue_le_iff]

theorem lt_iff_value? {p q : ℚ} (hx : value? x = some p) (hy : value? y = some q) : x < y ↔ p < q := by
  obtain ⟨-, a, ha, rfl⟩ := exists_rank?_of_value? hx
  obtain ⟨-, b, hb, rfl⟩ := exists_rank?_of_value? hy
  simp [lt_iff_rank?, ha, hb, placeValue_lt_iff]

/-- Finite floats are equal iff they stand for the same number. -/
theorem beq_iff_value? {p q : ℚ} (hx : value? x = some p) (hy : value? y = some q) : x == y ↔ p = q := by
  obtain ⟨-, a, ha, rfl⟩ := exists_rank?_of_value? hx
  obtain ⟨-, b, hb, rfl⟩ := exists_rank?_of_value? hy
  simp [beq_iff_rank?, ha, hb, placeValue_inj, @eq_comm ℤ b]

end SeriesFormula.Decimal
