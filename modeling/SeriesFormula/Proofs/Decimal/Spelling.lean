import SeriesFormula.Decimal.Literal
import SeriesFormula.Proofs.Text.Blank

/-!
# The spelling of decimal literals

`Spells cs l` says that the text `cs` is a spelling of the literal `l`:

    sign? (digits | digits? "." digits?) (("e" | "E") sign? digits)?

with at least one digit before the exponent. `SpellsNumeral cs l whole` says so for the stricter numbers of documents,
with digits on both sides of a point, no plus in front and no zero in front of other digits.

- the reader takes exactly the spellings (`literal?_eq_some_iff`);
- a text without blanks is a number iff it spells a literal of finite value (`numeric?_eq_some_iff`).
-/

namespace SeriesFormula.Decimal

/-! ## The grammar -/

/-- A sign; `true` stands for a minus. -/
inductive SpellsSign : List Char → Bool → Prop
  | none : SpellsSign [] false
  | plus : SpellsSign ['+'] false
  | minus : SpellsSign ['-'] true

/-- A coefficient, with the number of its digits that stand behind the point. -/
inductive SpellsCoefficient : List Char → Nat → Nat → Prop
  | whole {ds : List Char} : (∀ d ∈ ds, isDigit d) → ds ≠ [] → SpellsCoefficient ds (digitsValue ds) 0
  | fraction {ds fs : List Char} : (∀ d ∈ ds, isDigit d) → (∀ d ∈ fs, isDigit d) → ds ++ fs ≠ [] →
      SpellsCoefficient (ds ++ '.' :: fs) (digitsValue (ds ++ fs)) fs.length

/-- An exponent; without one it is zero. -/
inductive SpellsExponent : List Char → Int → Prop
  | none : SpellsExponent [] 0
  | some {c : Char} {sign ds : List Char} {negative : Bool} : c = 'e' ∨ c = 'E' → SpellsSign sign negative →
      ds ≠ [] → (∀ d ∈ ds, isDigit d) →
      SpellsExponent (c :: sign ++ ds) (if negative then -(digitsValue ds : Int) else digitsValue ds)

/-- A literal: a sign, a coefficient and an exponent. -/
inductive Spells : List Char → Literal → Prop
  | intro {sign coefficient exponent : List Char} {negative : Bool} {c k : Nat} {e : Int} :
      SpellsSign sign negative → SpellsCoefficient coefficient c k → SpellsExponent exponent e →
      Spells (sign ++ coefficient ++ exponent) ⟨negative, c, e - k⟩

/-- The digits of a number in front of the point: a zero in front stands alone. -/
structure IsWhole (ds : List Char) : Prop where
  digits : ∀ d ∈ ds, isDigit d
  ne_nil : ds ≠ []
  zero : ds.head? = some '0' → ds.length ≤ 1

/-- A point with at least one digit behind it, or nothing. -/
inductive SpellsFraction : List Char → List Char → Prop
  | none : SpellsFraction [] []
  | some {fs : List Char} : (∀ d ∈ fs, isDigit d) → fs ≠ [] → SpellsFraction ('.' :: fs) fs

/-- The decimal `c · 10^e` as documents spell it, without a sign; whole if it has neither fraction nor exponent. -/
inductive SpellsUnsigned : List Char → Nat → Int → Bool → Prop
  | intro {ds fraction fs exponent : List Char} {e : Int} : IsWhole ds → SpellsFraction fraction fs →
      SpellsExponent exponent e →
      SpellsUnsigned (ds ++ fraction ++ exponent) (digitsValue (ds ++ fs)) (e - fs.length)
        (fraction.isEmpty && exponent.isEmpty)

/-- A numeral, the number of a document: a plus never stands in front. -/
inductive SpellsNumeral : List Char → Literal → Bool → Prop
  | unsigned {cs : List Char} {c : Nat} {e : Int} {whole : Bool} : SpellsUnsigned cs c e whole →
      SpellsNumeral cs ⟨false, c, e⟩ whole
  | minus {cs : List Char} {c : Nat} {e : Int} {whole : Bool} : SpellsUnsigned cs c e whole →
      SpellsNumeral ('-' :: cs) ⟨true, c, e⟩ whole

/-- Whole digits with their fraction are a coefficient. -/
theorem IsWhole.spellsCoefficient {ds fraction fs : List Char} (hds : IsWhole ds) (hfs : SpellsFraction fraction fs) :
    SpellsCoefficient (ds ++ fraction) (digitsValue (ds ++ fs)) fs.length := by
  have hne : ds ++ fs ≠ [] := List.append_ne_nil_of_left_ne_nil hds.ne_nil fs
  cases hfs with
  | none =>
    rw [List.append_nil]
    exact .whole hds.digits hds.ne_nil
  | some hd _ => exact .fraction hds.digits hd hne

/-- A numeral is a literal. -/
theorem SpellsNumeral.spells {cs : List Char} {l : Literal} {whole : Bool} (h : SpellsNumeral cs l whole) :
    Spells cs l := by
  cases h with
  | unsigned h =>
    obtain ⟨hds, hfs, he⟩ := h
    rw [← List.nil_append (_ ++ _ ++ _), ← List.append_assoc]
    exact .intro .none (hds.spellsCoefficient hfs) he
  | minus h =>
    obtain ⟨hds, hfs, he⟩ := h
    rw [← List.singleton_append, ← List.append_assoc]
    exact .intro .minus (hds.spellsCoefficient hfs) he

/-! ## Characters -/

/-- A character that can stand in a literal. -/
def isLiteralChar (c : Char) : Bool :=
  isDigit c || c == '+' || c == '-' || c == '.' || c == 'e' || c == 'E'

theorem isLiteralChar_of_isDigit {c : Char} (h : isDigit c) : isLiteralChar c := by simp [isLiteralChar, h]

/-- A digit is none of the marks in a literal. -/
theorem ne_of_isDigit {c : Char} (h : isDigit c) : c ≠ '.' ∧ c ≠ '+' ∧ c ≠ '-' ∧ c ≠ 'e' ∧ c ≠ 'E' := by
  refine ⟨?_, ?_, ?_, ?_, ?_⟩ <;> rintro rfl <;> exact absurd h (by decide)

theorem SpellsSign.isLiteralChar {cs : List Char} {negative : Bool} (h : SpellsSign cs negative) :
    ∀ c ∈ cs, isLiteralChar c := by
  cases h <;> simp [Decimal.isLiteralChar]

theorem SpellsCoefficient.isLiteralChar {cs : List Char} {n k : Nat} (h : SpellsCoefficient cs n k) :
    ∀ c ∈ cs, isLiteralChar c := by
  intro c hc
  cases h with
  | whole hds _ => exact isLiteralChar_of_isDigit (hds c hc)
  | fraction hds hfs _ =>
    rcases List.mem_append.1 hc with hc | hc
    · exact isLiteralChar_of_isDigit (hds c hc)
    · rcases List.mem_cons.1 hc with rfl | hc
      · decide
      · exact isLiteralChar_of_isDigit (hfs c hc)

theorem SpellsExponent.isLiteralChar {cs : List Char} {e : Int} (h : SpellsExponent cs e) :
    ∀ c ∈ cs, isLiteralChar c := by
  intro c hc
  cases h with
  | none => cases hc
  | some he hs _ hds =>
    rcases List.mem_append.1 hc with hc | hc
    · rcases List.mem_cons.1 hc with rfl | hc
      · rcases he with rfl | rfl <;> decide
      · exact hs.isLiteralChar c hc
    · exact isLiteralChar_of_isDigit (hds c hc)

/-- A literal holds digits, signs, points and exponent marks only. -/
theorem Spells.isLiteralChar {cs : List Char} {l : Literal} (h : Spells cs l) : ∀ c ∈ cs, isLiteralChar c := by
  intro c hc
  obtain ⟨hs, hn, he⟩ := h
  rcases List.mem_append.1 hc with hc | hc
  · rcases List.mem_append.1 hc with hc | hc
    · exact hs.isLiteralChar c hc
    · exact hn.isLiteralChar c hc
  · exact he.isLiteralChar c hc

/-- A coefficient starts with a digit or a point. -/
theorem SpellsCoefficient.head {cs : List Char} {n k : Nat} (h : SpellsCoefficient cs n k) :
    ∃ c rest, cs = c :: rest ∧ (isDigit c ∨ c = '.') := by
  cases h with
  | @whole ds hds hne =>
    obtain ⟨c, rest, rfl⟩ := List.exists_cons_of_ne_nil hne
    exact ⟨c, rest, rfl, .inl (hds c List.mem_cons_self)⟩
  | @fraction ds fs hds _ _ =>
    cases ds with
    | nil => exact ⟨'.', fs, rfl, .inr rfl⟩
    | cons c rest => exact ⟨c, rest ++ '.' :: fs, rfl, .inl (hds c List.mem_cons_self)⟩

/-- What follows the coefficient starts with no digit and no point. -/
theorem SpellsExponent.head {cs : List Char} {e : Int} (h : SpellsExponent cs e) :
    cs = [] ∨ ∃ c rest, cs = c :: rest ∧ (c = 'e' ∨ c = 'E') := by
  cases h with
  | none => exact .inl rfl
  | some he _ _ _ => exact .inr ⟨_, _, rfl, he⟩

/-- A literal starts with a digit, a point or a sign. -/
theorem Spells.head {cs : List Char} {l : Literal} (h : Spells cs l) :
    ∃ c rest, cs = c :: rest ∧ (isDigit c ∨ c = '.' ∨ c = '+' ∨ c = '-') := by
  obtain ⟨hs, hc, _⟩ := h
  obtain ⟨c, rest, rfl, hhead⟩ := hc.head
  cases hs with
  | none => exact ⟨c, _, rfl, hhead.imp_right .inl⟩
  | plus => exact ⟨'+', _, rfl, .inr (.inr (.inl rfl))⟩
  | minus => exact ⟨'-', _, rfl, .inr (.inr (.inr rfl))⟩

theorem Spells.ne_nil {cs : List Char} {l : Literal} (h : Spells cs l) : cs ≠ [] := by
  obtain ⟨c, rest, rfl, _⟩ := h.head
  simp

/-! ## The pieces of a text -/

/-- A text that starts with no sign has none split off. -/
theorem splitSign_of_head {c : Char} {cs : List Char} (hm : c ≠ '-') (hp : c ≠ '+') :
    splitSign (c :: cs) = (false, c :: cs) := by
  unfold splitSign
  split
  · rename_i h; exact absurd (List.cons.inj h).1 hm
  · rename_i h; exact absurd (List.cons.inj h).1 hp
  · rfl

/-- A sign is split off what follows, unless that starts with a sign itself. -/
theorem splitSign_append {sign cs : List Char} {negative : Bool} {c : Char} (h : SpellsSign sign negative)
    (hm : c ≠ '-') (hp : c ≠ '+') : splitSign (sign ++ c :: cs) = (negative, c :: cs) := by
  cases h with
  | none => exact splitSign_of_head hm hp
  | plus => rfl
  | minus => rfl

/-- What is split off in front is a sign. -/
theorem exists_sign {cs rest : List Char} {negative : Bool} (h : splitSign cs = (negative, rest)) :
    ∃ sign, SpellsSign sign negative ∧ cs = sign ++ rest := by
  unfold splitSign at h
  split at h <;> cases h
  · exact ⟨['-'], .minus, rfl⟩
  · exact ⟨['+'], .plus, rfl⟩
  · exact ⟨[], .none, rfl⟩

/-- Digits are split off what follows, if that starts with none. -/
theorem splitDigits_append {ds rest : List Char} (hds : ∀ d ∈ ds, isDigit d)
    (hrest : ∀ c tail, rest = c :: tail → isDigit c = false) : splitDigits (ds ++ rest) = (ds, rest) := by
  unfold splitDigits
  rw [List.takeWhile_append_of_pos hds, List.dropWhile_append_of_pos hds]
  cases rest with
  | nil => simp
  | cons c tail => simp [hrest c tail rfl]

theorem splitDigits_spec (cs : List Char) :
    (∀ d ∈ (splitDigits cs).1, isDigit d) ∧ cs = (splitDigits cs).1 ++ (splitDigits cs).2 :=
  ⟨List.all_eq_true.1 List.all_takeWhile, List.takeWhile_append_dropWhile.symm⟩

/-- A text without a point in front has no fraction. -/
theorem splitFraction_of_head {cs : List Char} (h : ∀ tail, cs ≠ '.' :: tail) : splitFraction cs = ([], cs) := by
  unfold splitFraction
  split
  · exact absurd rfl (h _)
  · rfl

/-- The whole digits, the fraction and the rest of a coefficient with an exponent behind it. -/
theorem SpellsCoefficient.split {cs exponent : List Char} {n k : Nat} {e : Int} (h : SpellsCoefficient cs n k)
    (he : SpellsExponent exponent e) :
    ∃ ds fs rest, splitDigits (cs ++ exponent) = (ds, rest) ∧ splitFraction rest = (fs, exponent) ∧ ds ++ fs ≠ [] ∧
      n = digitsValue (ds ++ fs) ∧ k = fs.length := by
  have hdigit : ∀ c tail, exponent = c :: tail → isDigit c = false := by
    rintro c tail rfl
    rcases he.head with h | ⟨_, _, h, hc⟩
    · cases h
    · cases h; rcases hc with rfl | rfl <;> decide
  have hpoint : ∀ tail, exponent ≠ '.' :: tail := by
    rintro tail rfl
    rcases he.head with h | ⟨_, _, h, hc⟩
    · cases h
    · cases h; rcases hc with h | h <;> cases h
  cases h with
  | whole hds hne =>
    exact ⟨cs, [], exponent, splitDigits_append hds hdigit, splitFraction_of_head hpoint, by simpa using hne,
      by simp, rfl⟩
  | @fraction ds fs hds hfs hne =>
    refine ⟨ds, fs, '.' :: fs ++ exponent, ?_, splitDigits_append hfs hdigit, hne, rfl, rfl⟩
    rw [List.append_assoc]
    refine splitDigits_append hds ?_
    intro c tail hc
    cases hc
    decide

/-- The exponent's reader takes exactly the exponents. -/
theorem exponent?_eq_some_iff {cs : List Char} {e : Int} : exponent? cs = some e ↔ SpellsExponent cs e := by
  constructor
  · intro h
    unfold exponent? at h
    split at h
    · cases h; exact .none
    · rename_i c cs
      split at h
      · rename_i hc
        obtain ⟨negative, ds, hs⟩ : ∃ negative ds, splitSign cs = (negative, ds) := ⟨_, _, rfl⟩
        obtain ⟨sign, hsign, rfl⟩ := exists_sign hs
        simp only [hs, Bool.or_eq_true, Bool.not_eq_true', Option.ite_none_left_eq_some, not_or,
          Option.some.injEq] at h
        obtain ⟨⟨hne, hall⟩, rfl⟩ := h
        exact .some hc hsign (by simpa using hne) (by simpa using hall)
      · cases h
  · rintro (_ | @⟨c, sign, ds, negative, hc, hsign, hne, hds⟩)
    · rfl
    · obtain ⟨d, rest, rfl⟩ := List.exists_cons_of_ne_nil hne
      have hd := ne_of_isDigit (hds d List.mem_cons_self)
      have hall : (d :: rest).all isDigit := List.all_eq_true.2 hds
      simp only [exponent?, List.cons_append, hc, ↓reduceIte, splitSign_append hsign hd.2.2.1 hd.2.1, hall]
      simp

/-! ## Literals -/

/-- The reader's result in terms of the pieces that it splits off. -/
theorem literal?_of_split {cs unsigned whole behind fraction exponent : List Char} {negative : Bool}
    (hs : splitSign cs = (negative, unsigned)) (hw : splitDigits unsigned = (whole, behind))
    (hf : splitFraction behind = (fraction, exponent)) :
    literal? cs = if whole ++ fraction = [] then none
      else (exponent? exponent).map fun e => ⟨negative, digitsValue (whole ++ fraction), e - fraction.length⟩ := by
  simp only [literal?, hs, hw, hf]
  cases whole <;> cases fraction <;> simp

/-- The coefficient behind a text's sign, from the pieces that the reader splits off. -/
theorem exists_coefficient {unsigned whole behind fraction exponent : List Char}
    (hw : splitDigits unsigned = (whole, behind)) (hf : splitFraction behind = (fraction, exponent))
    (hne : whole ++ fraction ≠ []) :
    ∃ cs, SpellsCoefficient cs (digitsValue (whole ++ fraction)) fraction.length ∧ unsigned = cs ++ exponent := by
  obtain ⟨hwd, hwe⟩ := splitDigits_spec unsigned
  rw [hw] at hwd hwe
  unfold splitFraction at hf
  split at hf
  · rename_i cs
    obtain ⟨hfd, hfe⟩ := splitDigits_spec cs
    rw [hf] at hfd hfe
    refine ⟨whole ++ '.' :: fraction, .fraction hwd hfd hne, ?_⟩
    rw [hwe, hfe]
    simp
  · cases hf
    refine ⟨whole, ?_, hwe⟩
    simpa using SpellsCoefficient.whole hwd (by simpa using hne)

/-- **The reader of literals takes exactly the spellings.** -/
theorem literal?_eq_some_iff {cs : List Char} {l : Literal} : literal? cs = some l ↔ Spells cs l := by
  constructor
  · intro h
    obtain ⟨negative, unsigned, hs⟩ : ∃ negative unsigned, splitSign cs = (negative, unsigned) := ⟨_, _, rfl⟩
    obtain ⟨whole, behind, hw⟩ : ∃ whole behind, splitDigits unsigned = (whole, behind) := ⟨_, _, rfl⟩
    obtain ⟨fraction, exponent, hf⟩ : ∃ fraction exponent, splitFraction behind = (fraction, exponent) := ⟨_, _, rfl⟩
    rw [literal?_of_split hs hw hf, Option.ite_none_left_eq_some, Option.map_eq_some_iff] at h
    obtain ⟨hne, e, he, rfl⟩ := h
    obtain ⟨sign, hsign, rfl⟩ := exists_sign hs
    obtain ⟨coefficient, hc, rfl⟩ := exists_coefficient hw hf hne
    rw [← List.append_assoc]
    exact .intro hsign hc (exponent?_eq_some_iff.1 he)
  · rintro @⟨sign, coefficient, exponent, negative, n, k, e, hs, hc, he⟩
    obtain ⟨ds, fs, rest, hw, hf, hne, rfl, rfl⟩ := hc.split he
    obtain ⟨c, tail, rfl, hhead⟩ := hc.head
    have hm : c ≠ '-' ∧ c ≠ '+' := by
      rcases hhead with h | rfl
      · exact ⟨(ne_of_isDigit h).2.2.1, (ne_of_isDigit h).2.1⟩
      · decide
    rw [literal?_of_split (by rw [List.append_assoc]; exact splitSign_append hs hm.1 hm.2) hw hf, if_neg hne,
      exponent?_eq_some_iff.2 he]
    rfl

/-! ## Numbers -/

/-- No character of a literal is a blank. -/
theorem isBlank_of_isLiteralChar {c : Char} (h : isLiteralChar c) : Text.isBlank c = false := by
  simp only [isLiteralChar, isDigit, Bool.or_eq_true, Bool.and_eq_true, decide_eq_true_eq, beq_iff_eq] at h
  rcases h with ((((⟨hl, hu⟩ | rfl) | rfl) | rfl) | rfl) | rfl
  · have hl : 0x30 ≤ c.toNat := hl
    have hu : c.toNat ≤ 0x39 := hu
    exact Text.isBlank_of_printable (by omega) (by omega)
  all_goals decide

theorem Spells.solid {cs : List Char} {l : Literal} (h : Spells cs l) : Text.Solid cs :=
  fun c hc => isBlank_of_isLiteralChar (h.isLiteralChar c hc)

/-- A text without blanks is a number iff it spells a literal of finite value. -/
theorem numeric?_eq_some_iff {cs : List Char} {x : Float} (hcs : Text.Solid cs) :
    numeric? cs = some x ↔ ∃ l, Spells cs l ∧ isFinite l.value ∧ l.value = x := by
  simp only [numeric?, Text.trim_of_solid hcs, Option.filter_eq_some_iff, Option.map_eq_some_iff,
    literal?_eq_some_iff]
  constructor
  · rintro ⟨⟨l, hl, rfl⟩, hf⟩
    exact ⟨l, hl, hf, rfl⟩
  · rintro ⟨l, hl, hf, rfl⟩
    exact ⟨⟨l, hl, rfl⟩, hf⟩

end SeriesFormula.Decimal
