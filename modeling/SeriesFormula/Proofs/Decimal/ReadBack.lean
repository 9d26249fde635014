import SeriesFormula.Decimal.Layout
import SeriesFormula.Proofs.Decimal.Pattern
import SeriesFormula.Proofs.Decimal.Rounding
import SeriesFormula.Proofs.Decimal.Spelling

/-!
# Written floats read back

- the shortest decimal of a magnitude reads back as it (`bits_shortest`): what the search finds has been tried, what
  stands behind the search is exact, and the zeros at the end can go;
- digits with the point at its place, or with an exponent, spell the decimal that they stand for (`reads_place`,
  `reads_scale`);
- so a finite float in any layout is a numeral with the float as its value, a zero with its sign included
  (`exists_numeral_chars`).
-/

namespace SeriesFormula.Decimal

/-! ## The shortest decimal -/

/-- A decimal on the grid is taken for reading back. -/
theorem bits_of_onGrid {tie : Tie} {bits num den : ℕ} {e : ℤ} {d : Digits} (h : onGrid tie bits num den e = some d) :
    d.bits = bits := by
  unfold onGrid at h
  dsimp only at h
  split at h
  · cases h
  · rename_i hl _; cases h; simpa using hl
  · rename_i hh; cases h; simpa using hh
  · rename_i hl hh
    simp only [beq_iff_eq] at hl hh
    split at h
    · cases h; exact hl
    · split at h
      · cases h; exact hh
      · split at h
        · cases h; exact hh
        · cases h; split <;> assumption

/-- The zeros at the end do not matter. -/
theorem bits_strip (d : Digits) (fuel : ℕ) : (d.strip fuel).bits = d.bits := by
  induction fuel generalizing d with
  | zero => rfl
  | succ fuel ih =>
    unfold Digits.strip
    split
    · rename_i h
      rw [ih]
      have hc : d.coefficient / 10 * 10 ^ 1 = d.coefficient := by omega
      have hmul := nearest_mul_pow (d.coefficient / 10) 1 d.exponent
      rw [hc] at hmul
      exact hmul.symm
    · rfl

/-- All digits of a magnitude read back. -/
theorem bits_exactDigits {bits : ℕ} (h : 0 < bits) (hlt : bits < infinityBits) :
    (exactDigits (Scaled.ofBits bits)).bits = bits := by
  have hnear := nearestFraction_ofBits h hlt
  generalize Scaled.ofBits bits = x at *
  have hnum : 0 < x.num := by
    refine Nat.pos_of_ne_zero fun hz => ?_
    rw [hz, nearestFraction, if_pos rfl] at hnear
    omega
  have hexp : (min x.exponent 0).toNat = 0 ∧ (-(min x.exponent 0)).toNat = (-x.exponent).toNat := by omega
  calc (exactDigits x).bits = nearest (x.num * 5 ^ (-x.exponent).toNat) (min x.exponent 0) := rfl
    _ = nearestFraction (x.num * 5 ^ (-x.exponent).toNat) (10 ^ (-x.exponent).toNat) := by
        rw [nearest_eq_nearestFraction (by positivity), hexp.1, hexp.2, pow_zero, mul_one]
    _ = nearestFraction x.num x.den := by
        refine nearestFraction_congr (by positivity) x.den_pos ?_
        have hten : 5 ^ (-x.exponent).toNat * 2 ^ (-x.exponent).toNat = 10 ^ (-x.exponent).toNat :=
          (mul_pow 5 2 _).symm
        rw [x.den_eq, mul_assoc, hten]
    _ = bits := hnear

/-- **The shortest decimal of a magnitude reads back as it.** -/
theorem bits_shortest (tie : Tie) {bits : ℕ} (h : 0 < bits) (hlt : bits < infinityBits) :
    (shortest tie bits).bits = bits := by
  unfold shortest
  dsimp only
  rw [bits_strip]
  cases hf : (List.range 17).findSome? fun (n : ℕ) => onGrid tie bits (Scaled.ofBits bits).num (Scaled.ofBits bits).den
      (pointPlace (Scaled.ofBits bits).num (Scaled.ofBits bits).den - (n + 1)) with
  | none => exact bits_exactDigits h hlt
  | some d =>
    obtain ⟨n, -, hn⟩ := List.exists_of_findSome?_eq_some hf
    exact bits_of_onGrid hn

/-! ## Digits -/

theorem digitsValue_eq_ofDigitChars (ds : List Char) : digitsValue ds = Nat.ofDigitChars 10 ds 0 := rfl

theorem digitsValue_naturalDigits (n : ℕ) : digitsValue (naturalDigits n) = n := Nat.ofDigitChars_ten_toDigits

/-- Zeros behind the digits. -/
theorem digitsValue_append_zeros (ds : List Char) (n : ℕ) :
    digitsValue (ds ++ List.replicate n '0') = digitsValue ds * 10 ^ n := by
  simp only [digitsValue_eq_ofDigitChars, Nat.ofDigitChars_append, Nat.ofDigitChars_replicate_zero]
  exact Nat.mul_comm _ _

/-- Zeros in front of the digits. -/
theorem digitsValue_zeros_append (ds : List Char) (n : ℕ) :
    digitsValue (List.replicate n '0' ++ ds) = digitsValue ds := by
  simp only [digitsValue_eq_ofDigitChars, Nat.ofDigitChars_append, Nat.ofDigitChars_replicate_zero, Nat.mul_zero]

theorem isDigit_of_mem_naturalDigits {n : ℕ} {c : Char} (h : c ∈ naturalDigits n) : isDigit c := by
  have hc := Nat.isDigit_of_mem_toDigits (by decide) (by decide) h
  simp only [Char.isDigit, Bool.and_eq_true, decide_eq_true_eq] at hc
  simp only [isDigit, Bool.and_eq_true, decide_eq_true_eq]
  exact hc

theorem isDigit_of_mem_zeros {n : ℕ} {c : Char} (h : c ∈ List.replicate n '0') : isDigit c := by
  rw [List.eq_of_mem_replicate h]
  decide

/-- The first digit of a number is no zero. -/
theorem head?_naturalDigits {n : ℕ} (h : 0 < n) : (naturalDigits n).head? ≠ some '0' := by
  induction n using Nat.strongRecOn with
  | ind n ih =>
    unfold naturalDigits
    rw [Nat.toDigits_eq_if (by decide)]
    split
    · -- a single digit
      rename_i hlt
      have hdigit : ∀ d < 10, 0 < d → Nat.digitChar d ≠ '0' := by decide
      intro hc
      exact hdigit n hlt h (Option.some.inj hc)
    · -- the first digit is that of the number without its last one
      rename_i hge
      rw [List.head?_append_of_ne_nil _ Nat.toDigits_ne_nil]
      exact ih (n / 10) (by omega) (by omega)

/-- The digits of a number stand in front of a point as they are. -/
theorem isWhole_naturalDigits (n : ℕ) : IsWhole (naturalDigits n) where
  digits _ := isDigit_of_mem_naturalDigits
  ne_nil := Nat.toDigits_ne_nil
  zero h := by
    rcases Nat.eq_zero_or_pos n with rfl | hn
    · exact Nat.le_refl 1
    · exact absurd h (head?_naturalDigits hn)

/-- The first digits of a number. -/
theorem IsWhole.take {ds : List Char} (h : IsWhole ds) {n : ℕ} (hn : 0 < n) : IsWhole (ds.take n) where
  digits d hd := h.digits d (List.mem_of_mem_take hd)
  ne_nil := by
    have hpos := List.length_pos_iff.2 h.ne_nil
    rw [← List.length_pos_iff, List.length_take]
    omega
  zero hhead := by
    rw [List.head?_take, if_neg (by omega)] at hhead
    have hlength := h.zero hhead
    rw [List.length_take]
    omega

/-- Zeros behind a number that starts with none. -/
theorem IsWhole.append_zeros {ds : List Char} (h : IsWhole ds) {n : ℕ} (hzero : ds.head? = some '0' → n = 0) :
    IsWhole (ds ++ List.replicate n '0') where
  digits := List.forall_mem_append.2 ⟨h.digits, fun _ => isDigit_of_mem_zeros⟩
  ne_nil := List.append_ne_nil_of_left_ne_nil h.ne_nil _
  zero hhead := by
    rw [List.head?_append_of_ne_nil _ h.ne_nil] at hhead
    rw [hzero hhead, List.replicate_zero, List.append_nil]
    exact h.zero hhead

/-! ## Layouts -/

section Layouts

variable (layout : Layout)

/-- The text spells a decimal whose nearest magnitude is the given one, with a point or an exponent if the layout asks
for a point. -/
def Layout.Reads (cs : List Char) (bits : ℕ) : Prop :=
  ∃ c e whole, SpellsUnsigned cs c e whole ∧ nearest c e = bits ∧ (layout.point → whole = false)

/-- Whole digits with a fraction behind them. -/
theorem reads_fraction {ds fs : List Char} (hds : IsWhole ds) (hfs : ∀ d ∈ fs, isDigit d) (hne : fs ≠ []) :
    layout.Reads (ds ++ '.' :: fs) (nearest (digitsValue (ds ++ fs)) (-fs.length)) := by
  have h := SpellsUnsigned.intro hds (.some hfs hne) .none
  rw [List.append_nil, Int.zero_sub] at h
  exact ⟨_, _, _, h, rfl, fun _ => rfl⟩

/-- Digits with the point at its place spell the decimal that they stand for. -/
theorem reads_place {ds : List Char} {e : ℤ} (hds : IsWhole ds) (hzero : ds.head? = some '0' → e = 0) :
    layout.Reads (layout.place ds e) (nearest (digitsValue ds) e) := by
  unfold Layout.place
  dsimp only
  split
  · -- zeros up to the point
    rename_i he
    have hwhole : IsWhole (ds ++ List.replicate e.toNat '0') := hds.append_zeros fun h => by
      rw [hzero h]
      rfl
    have hvalue : nearest (digitsValue (ds ++ List.replicate e.toNat '0')) 0 = nearest (digitsValue ds) e := by
      rw [digitsValue_append_zeros, nearest_mul_pow]
      congr 1
      omega
    cases hpoint : layout.point with
    | false =>
      have h := SpellsUnsigned.intro hwhole .none .none
      rw [List.append_nil] at h
      refine ⟨_, _, _, h, ?_, fun hp => absurd hp (by rw [hpoint]; decide)⟩
      rw [List.append_nil]
      exact hvalue
    | true =>
      have h := reads_fraction layout hwhole (fun _ => @isDigit_of_mem_zeros 1 _) (List.cons_ne_nil _ _)
      rw [digitsValue_append_zeros, nearest_mul_pow] at h
      rw [← hvalue]
      exact h
  · split
    · -- the point stands inside of the digits
      rename_i he hb
      have hfs : ∀ d ∈ ds.drop ((ds.length : ℤ) + e).toNat, isDigit d :=
        fun d hd => hds.digits d (List.mem_of_mem_drop hd)
      have hlength : ((ds.drop ((ds.length : ℤ) + e).toNat).length : ℤ) = -e := by
        rw [List.length_drop]
        omega
      have hne : ds.drop ((ds.length : ℤ) + e).toNat ≠ [] := by
        rw [← List.length_pos_iff]
        omega
      have h := reads_fraction layout (hds.take (n := ((ds.length : ℤ) + e).toNat) (by omega)) hfs hne
      rwa [List.take_append_drop, hlength, Int.neg_neg] at h
    · -- the point stands in front of the digits, with zeros between them
      rename_i he hb
      have hfs : ∀ n, ∀ d ∈ List.replicate n '0' ++ ds, isDigit d := fun n =>
        List.forall_mem_append.2 ⟨fun _ => isDigit_of_mem_zeros, hds.digits⟩
      have h := reads_fraction layout (isWhole_naturalDigits 0) (hfs (-((ds.length : ℤ) + e)).toNat)
        (List.append_ne_nil_of_right_ne_nil _ hds.ne_nil)
      have hvalue : ∀ n, digitsValue (naturalDigits 0 ++ (List.replicate n '0' ++ ds)) = digitsValue ds := fun n =>
        (digitsValue_zeros_append _ 1).trans (digitsValue_zeros_append ds n)
      have hlength : -((List.replicate (-((ds.length : ℤ) + e)).toNat '0' ++ ds).length : ℤ) = e := by
        rw [List.length_append, List.length_replicate]
        omega
      rw [hvalue, hlength] at h
      exact h

/-- An exponent with its digits. -/
theorem spellsExponent_exponentDigits (e : ℤ) : SpellsExponent ('e' :: layout.exponentDigits e) e := by
  have hdigits : ∀ {sign : List Char} {negative : Bool}, SpellsSign sign negative →
      SpellsExponent ('e' :: sign ++ naturalDigits e.natAbs) (if negative then -(e.natAbs : ℤ) else e.natAbs) := by
    intro sign negative hs
    have hwhole := isWhole_naturalDigits e.natAbs
    have h := SpellsExponent.some (.inl rfl) hs hwhole.ne_nil hwhole.digits
    rwa [digitsValue_naturalDigits] at h
  unfold Layout.exponentDigits
  split
  · have h := hdigits .minus
    rwa [if_pos rfl, show -(e.natAbs : ℤ) = e by omega] at h
  · have habs : (e.natAbs : ℤ) = e := by omega
    split
    · have h := hdigits .plus
      rwa [if_neg Bool.false_ne_true, habs] at h
    · have h := hdigits .none
      rwa [if_neg Bool.false_ne_true, habs] at h

/-- Digits with an exponent: the point stands behind the first. -/
theorem reads_scale {ds : List Char} (hds : IsWhole ds) (e : ℤ) :
    layout.Reads (layout.scale ds e) (nearest (digitsValue ds) (e - (ds.length - 1 : ℕ))) := by
  have hpos : 0 < ds.length := List.length_pos_iff.2 hds.ne_nil
  have hfraction : SpellsFraction (if 1 < ds.length then '.' :: ds.drop 1 else []) (ds.drop 1) := by
    split
    · refine .some (fun d hd => hds.digits d (List.mem_of_mem_drop hd)) ?_
      rw [← List.length_pos_iff, List.length_drop]
      omega
    · rw [List.drop_eq_nil_of_le (by omega)]
      exact .none
  have hspells := SpellsUnsigned.intro (hds.take Nat.one_pos) hfraction (spellsExponent_exponentDigits layout e)
  rw [List.take_append_drop, List.length_drop] at hspells
  exact ⟨_, _, _, hspells, rfl, fun _ => Bool.and_false _⟩

/-- A decimal in the layout. -/
theorem reads_digits {d : Digits} (hd : 0 < d.coefficient) : layout.Reads (layout.digits d) d.bits := by
  have hds := isWhole_naturalDigits d.coefficient
  have hplace : layout.Reads (layout.place (naturalDigits d.coefficient) d.exponent) d.bits := by
    have h := reads_place layout (e := d.exponent) hds fun h => absurd h (head?_naturalDigits hd)
    rwa [digitsValue_naturalDigits] at h
  have hscale : layout.Reads (layout.scale (naturalDigits d.coefficient)
      (d.exponent + (naturalDigits d.coefficient).length - 1)) d.bits := by
    have hpos : 0 < (naturalDigits d.coefficient).length := List.length_pos_iff.2 hds.ne_nil
    have h := reads_scale layout hds (d.exponent + (naturalDigits d.coefficient).length - 1)
    rwa [digitsValue_naturalDigits, show d.exponent + ((naturalDigits d.coefficient).length : ℤ) - 1 -
      ((naturalDigits d.coefficient).length - 1 : ℕ) = d.exponent by omega] at h
  unfold Layout.digits
  dsimp only
  split
  · exact hplace
  · split
    · exact hplace
    · exact hscale

/-- A magnitude below infinity in the layout. -/
theorem reads_magnitude {bits : ℕ} (hlt : bits < infinityBits) : layout.Reads (layout.magnitude bits) bits := by
  unfold Layout.magnitude
  split
  · rename_i hz
    rw [hz]
    exact reads_place layout (isWhole_naturalDigits 0) fun _ => rfl
  · rename_i hz
    have hread := bits_shortest layout.tie (Nat.pos_of_ne_zero hz) hlt
    have hcoefficient : 0 < (shortest layout.tie bits).coefficient := by
      refine Nat.pos_of_ne_zero fun hc => hz ?_
      rw [← hread, Digits.bits, hc]
      rfl
    have h := reads_digits layout hcoefficient
    rwa [hread] at h

/-- **A finite float in a layout is a numeral with the float as its value**, a zero with its sign included. -/
theorem exists_numeral_chars {x : Float} (hx : isFinite x) :
    ∃ l whole, SpellsNumeral (layout.chars x) l whole ∧ l.value = x ∧ (layout.point → whole = false) := by
  have hlt : magnitudeBits x < infinityBits := of_decide_eq_true hx
  obtain ⟨c, e, whole, hs, hn, hpoint⟩ := reads_magnitude layout hlt
  refine ⟨⟨isNegative x, c, e⟩, whole, ?_, ?_, hpoint⟩
  · rw [Layout.chars, content, if_pos hlt]
    dsimp only
    cases isNegative x with
    | false => exact .unsigned hs
    | true => exact .minus hs
  · rw [Literal.value, hn, compose_isNegative_magnitudeBits]

end Layouts

/-- A finite float in plain digits spells a literal with the float as its value. -/
theorem exists_spells_chars {x : Float} (hx : isFinite x) : ∃ l, Spells (plain.chars x) l ∧ l.value = x := by
  obtain ⟨l, whole, hs, hl, -⟩ := exists_numeral_chars plain hx
  exact ⟨l, hs.spells, hl⟩

end SeriesFormula.Decimal
