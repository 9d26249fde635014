import Mathlib.Order.Defs.LinearOrder
import SeriesFormula.Calendar.Date
import SeriesFormula.Proofs.Decimal.ReadBack

/-!
# Days written in ten digits and hyphens

`SpellsDay cs date` says that the text is the day in the layout `YYYY-MM-DD`.

- numerals of one width are ordered like their values (`append_lt_append_iff`), and so are days in this layout
  (`SpellsDay.lt_iff`);
- the layout is the written form of the days of the years 0 to 9999, and of no others (`spellsDay_iff_chars`).
-/

namespace SeriesFormula

open Decimal

/-! ## Numerals of one width -/

namespace Decimal

/-- A text of `n` digits. -/
def IsNumeral (n : ℕ) (ds : List Char) : Prop := ds.length = n ∧ ∀ d ∈ ds, isDigit d

instance (n : ℕ) : DecidablePred (IsNumeral n) := fun ds =>
  have := List.decidableBAll (fun d => isDigit d = true) ds
  instDecidableAnd

theorem digitsValue_cons (d : Char) (ds : List Char) :
    digitsValue (d :: ds) = 10 ^ ds.length * (d.toNat - '0'.toNat) + digitsValue ds := by
  rw [digitsValue_eq_ofDigitChars, digitsValue_eq_ofDigitChars, Nat.ofDigitChars_cons,
    Nat.ofDigitChars_eq_ofDigitChars_zero, Nat.mul_zero, Nat.zero_add]

/-- A digit is one of ten characters in a row. -/
theorem toNat_of_isDigit {d : Char} (h : isDigit d) : '0'.toNat ≤ d.toNat ∧ d.toNat < '0'.toNat + 10 := by
  simp only [isDigit, Bool.and_eq_true, decide_eq_true_eq] at h
  exact ⟨h.1, Nat.lt_succ_of_le h.2⟩

theorem digitsValue_lt {ds : List Char} (h : ∀ d ∈ ds, isDigit d) : digitsValue ds < 10 ^ ds.length := by
  induction ds with
  | nil => exact Nat.one_pos
  | cons d ds ih =>
    obtain ⟨hd, hds⟩ := List.forall_mem_cons.1 h
    have hrest := ih hds
    have hdigit : d.toNat - '0'.toNat ≤ 9 := by
      have := toNat_of_isDigit hd
      omega
    rw [digitsValue_cons, List.length_cons, Nat.pow_succ]
    have hfirst := Nat.mul_le_mul_left (10 ^ ds.length) hdigit
    omega

/-- The place with the higher weight decides, and of equal ones the other place. -/
theorem mul_add_lt_iff {P x y v w : ℕ} (hv : v < P) (hw : w < P) :
    P * x + v < P * y + w ↔ x < y ∨ x = y ∧ v < w := by
  rcases Nat.lt_trichotomy x y with hlt | rfl | hgt
  · have := Nat.mul_le_mul_left P (Nat.succ_le_of_lt hlt)
    rw [Nat.mul_succ] at this
    omega
  · omega
  · have := Nat.mul_le_mul_left P (Nat.succ_le_of_lt hgt)
    rw [Nat.mul_succ] at this
    omega

/-- **Numerals of one width are ordered like their values**, and what follows decides between equal ones. -/
theorem append_lt_append_iff {n : ℕ} {ds es r s : List Char} (hd : IsNumeral n ds) (he : IsNumeral n es) :
    ds ++ r < es ++ s ↔ digitsValue ds < digitsValue es ∨ digitsValue ds = digitsValue es ∧ r < s := by
  obtain ⟨rfl, hd⟩ := hd
  obtain ⟨hlen, he⟩ := he
  induction ds generalizing es with
  | nil =>
    rw [List.eq_nil_of_length_eq_zero hlen]
    simp
  | cons d ds ih =>
    obtain ⟨e, es, rfl⟩ := List.exists_cons_of_length_eq_add_one hlen
    obtain ⟨hd, hds⟩ := List.forall_mem_cons.1 hd
    obtain ⟨he, hes⟩ := List.forall_mem_cons.1 he
    have hlen : es.length = ds.length := Nat.succ.inj hlen
    have hv := digitsValue_lt hds
    have hw := digitsValue_lt hes
    rw [hlen] at hw
    have hlt : d < e ↔ d.toNat - '0'.toNat < e.toNat - '0'.toNat := by
      have := toNat_of_isDigit hd
      have := toNat_of_isDigit he
      change d.toNat < e.toNat ↔ _
      omega
    have heq : d = e ↔ d.toNat - '0'.toNat = e.toNat - '0'.toNat := by
      have := toNat_of_isDigit hd
      have := toNat_of_isDigit he
      rw [← Char.toNat_inj]
      omega
    have hvalue := mul_add_lt_iff (x := d.toNat - '0'.toNat) (y := e.toNat - '0'.toNat) hv hw
    have hvalue' := mul_add_lt_iff (x := e.toNat - '0'.toNat) (y := d.toNat - '0'.toNat) hw hv
    rw [List.cons_append, List.cons_append, List.cons_lt_cons_iff, ih hds hlen hes, hlt, heq, digitsValue_cons,
      digitsValue_cons, hlen]
    grind

/-- Numerals of one width with the same value are the same. -/
theorem IsNumeral.eq {n : ℕ} {ds es : List Char} (hd : IsNumeral n ds) (he : IsNumeral n es)
    (h : digitsValue ds = digitsValue es) : ds = es := by
  have hlt := append_lt_append_iff (r := []) (s := []) hd he
  have hgt := append_lt_append_iff (r := []) (s := []) he hd
  rw [List.append_nil, List.append_nil, h] at hlt hgt
  simp only [Nat.lt_irrefl, List.lt_irrefl, and_false, or_self, iff_false] at hlt hgt
  exact List.le_antisymm hgt hlt

/-- Zeros in front fill a number up to a width. -/
theorem isNumeral_padded {width n : ℕ} (hwidth : 0 < width) (hn : n < 10 ^ width) :
    IsNumeral width (Date.padded width n) := by
  have hlength : (naturalDigits n).length ≤ width := (Nat.length_toDigits_le_iff (by decide) hwidth).2 hn
  constructor
  · show (List.replicate (width - (naturalDigits n).length) '0' ++ naturalDigits n).length = width
    simp only [List.length_append, List.length_replicate]
    omega
  · exact List.forall_mem_append.2 ⟨fun _ => isDigit_of_mem_zeros, fun _ => isDigit_of_mem_naturalDigits⟩

theorem digitsValue_padded (width n : ℕ) : digitsValue (Date.padded width n) = n :=
  (digitsValue_zeros_append _ _).trans (digitsValue_naturalDigits n)

end Decimal

/-! ## The order of days -/

namespace Date

theorem day_le (d : Date) : d.day ≤ 31 := by
  have h := d.isDay.2.2.2
  unfold Calendar.daysInMonth at h
  split at h <;> try split at h
  all_goals omega

theorem month_le (d : Date) : d.month ≤ 12 := by
  have hday := d.isDay.2.2.1
  have h := d.isDay.2.2.2
  unfold Calendar.daysInMonth at h
  split at h <;> omega

/-- Days are ordered by year, month and day. -/
theorem lt_iff {a b : Date} : a < b ↔
    a.year < b.year ∨ a.year = b.year ∧ (a.month < b.month ∨ a.month = b.month ∧ a.day < b.day) := by
  have ha := a.day_le
  have hb := b.day_le
  have ha' := a.month_le
  have hb' := b.month_le
  change a.rank < b.rank ↔ _
  unfold rank
  omega

theorem rank_inj {a b : Date} (h : a.rank = b.rank) : a = b := by
  have hday : a.day = b.day ∧ a.month = b.month ∧ a.year = b.year := by
    have ha := a.day_le
    have hb := b.day_le
    have ha' := a.month_le
    have hb' := b.month_le
    unfold rank at h
    omega
  obtain ⟨year, month, day, _⟩ := a
  obtain ⟨rfl, rfl, rfl⟩ := hday
  rfl

/-- Days are in one order. -/
instance (priority := low) : LinearOrder Date where
  le_refl a := Int.le_refl a.rank
  le_trans _ _ _ := Int.le_trans
  lt_iff_le_not_ge _ _ := Int.lt_iff_le_and_not_ge
  le_antisymm _ _ hab hba := rank_inj (Int.le_antisymm hab hba)
  le_total a b := Int.le_total a.rank b.rank
  toDecidableLE := inferInstance
  toDecidableLT := inferInstance
  toDecidableEq := inferInstance

end Date

/-! ## The layout -/

/-- Four digits, two and two, with hyphens between them. -/
def IsPadded (cs : List Char) : Prop :=
  ∃ ys ms ds, IsNumeral 4 ys ∧ IsNumeral 2 ms ∧ IsNumeral 2 ds ∧ cs = ys ++ '-' :: (ms ++ '-' :: ds)

instance : DecidablePred IsPadded := fun cs =>
  decidable_of_iff (IsNumeral 4 (cs.take 4) ∧ IsNumeral 2 ((cs.drop 5).take 2) ∧ IsNumeral 2 (cs.drop 8) ∧
      cs = cs.take 4 ++ '-' :: ((cs.drop 5).take 2 ++ '-' :: cs.drop 8)) <| by
    constructor
    · exact fun h => ⟨_, _, _, h⟩
    · rintro ⟨ys, ms, ds, hy, hm, hd, rfl⟩
      have hys : (ys ++ '-' :: (ms ++ '-' :: ds)).take 4 = ys := List.take_left' hy.1
      have hms : ((ys ++ '-' :: (ms ++ '-' :: ds)).drop 5).take 2 = ms := by
        rw [List.append_cons ys, List.drop_left' (by simp [hy.1]), List.take_left' hm.1]
      have hds : (ys ++ '-' :: (ms ++ '-' :: ds)).drop 8 = ds := by
        rw [List.append_cons ys, List.append_cons ms, ← List.append_assoc, List.drop_left' (by simp [hy.1, hm.1])]
      rw [hys, hms, hds]
      exact ⟨hy, hm, hd, rfl⟩

/-- The day in the layout `YYYY-MM-DD`. -/
inductive SpellsDay : List Char → Date → Prop
  | intro {ys ms ds : List Char} {date : Date} : IsNumeral 4 ys → IsNumeral 2 ms → IsNumeral 2 ds →
      date.year = digitsValue ys → date.month = digitsValue ms → date.day = digitsValue ds →
      SpellsDay (ys ++ '-' :: (ms ++ '-' :: ds)) date

theorem SpellsDay.isPadded {cs : List Char} {date : Date} (h : SpellsDay cs date) : IsPadded cs := by
  obtain ⟨hy, hm, hd, -, -, -⟩ := h
  exact ⟨_, _, _, hy, hm, hd, rfl⟩

/-- **Days in the layout are ordered like their texts.** -/
theorem SpellsDay.lt_iff {cs es : List Char} {a b : Date} (ha : SpellsDay cs a) (hb : SpellsDay es b) :
    cs < es ↔ a < b := by
  obtain ⟨hy, hm, hd, hay, ham, had⟩ := ha
  obtain ⟨hy', hm', hd', hby, hbm, hbd⟩ := hb
  have hday := append_lt_append_iff (r := []) (s := []) hd hd'
  rw [List.append_nil, List.append_nil] at hday
  rw [append_lt_append_iff hy hy', List.cons_lt_cons_iff, append_lt_append_iff hm hm', List.cons_lt_cons_iff, hday,
    Date.lt_iff, hay, hby, ham, hbm, had, hbd, Int.ofNat_lt, Int.ofNat_inj]
  simp only [List.lt_irrefl, Char.lt_irrefl, and_false, or_false, false_or, true_and]

/-! ## The written form -/

/-- A day in the layout is one of the first ten thousand years. -/
theorem SpellsDay.year_bounds {cs : List Char} {date : Date} (h : SpellsDay cs date) :
    0 ≤ date.year ∧ date.year ≤ 9999 := by
  obtain ⟨hy, -, -, hyear, -, -⟩ := h
  have hlt := digitsValue_lt hy.2
  rw [hy.1] at hlt
  omega

/-- Those years are written in four digits. -/
theorem yearChars_eq {year : ℤ} (hl : 0 ≤ year) (hu : year ≤ 9999) :
    Date.yearChars year = Date.padded 4 year.toNat := by
  have hnat : year.natAbs = year.toNat := by omega
  rw [Date.yearChars, if_neg (by omega), if_neg (by omega), hnat]

/-- Those days are written in the layout. -/
theorem spellsDay_chars {date : Date} (hl : 0 ≤ date.year) (hu : date.year ≤ 9999) : SpellsDay date.chars date := by
  have hday := date.day_le
  have hmonth := date.month_le
  rw [Date.chars, yearChars_eq hl hu, List.append_assoc]
  refine .intro (isNumeral_padded (by decide) (by omega)) (isNumeral_padded (by decide) (by omega))
    (isNumeral_padded (by decide) (by omega)) ?_ (digitsValue_padded _ _).symm (digitsValue_padded _ _).symm
  rw [digitsValue_padded, Int.toNat_of_nonneg hl]

/-- The layout leaves no choice. -/
theorem SpellsDay.unique {cs es : List Char} {date : Date} (h : SpellsDay cs date) (h' : SpellsDay es date) :
    cs = es := by
  obtain ⟨hy, hm, hd, hyear, hmonth, hday⟩ := h
  obtain ⟨hy', hm', hd', hyear', hmonth', hday'⟩ := h'
  rw [hy.eq hy' (Int.ofNat_inj.1 (hyear.symm.trans hyear')), hm.eq hm' (hmonth.symm.trans hmonth'),
    hd.eq hd' (hday.symm.trans hday')]

/-- **The layout is the written form of the days of the years 0 to 9999.** -/
theorem spellsDay_iff_chars {cs : List Char} {date : Date} :
    SpellsDay cs date ↔ cs = date.chars ∧ 0 ≤ date.year ∧ date.year ≤ 9999 := by
  constructor
  · intro h
    obtain ⟨hl, hu⟩ := h.year_bounds
    exact ⟨h.unique (spellsDay_chars hl hu), hl, hu⟩
  · rintro ⟨rfl, hl, hu⟩
    exact spellsDay_chars hl hu

end SeriesFormula
