import SeriesFormula.Proofs.Calendar.Layout
import SeriesFormula.Series.Observation

/-!
# The spelling of labels

`SpellsFreely cs date` says that the text spells the day with blanks in front of each number, one to four digits for a
year or any number of them behind a sign, and one or two digits for month and day.

- the reader takes exactly these spellings (`readDate_eq_some_iff`), and of labels those of ten bytes, blanks at the
  ends aside (`ofLabel?_eq_some_iff`);
- ten bytes without blanks and sign leave no room for shorter numbers, so such a text is read only in the layout
  `YYYY-MM-DD` (`spellsDay_iff`);
- with blanks or a sign the ten bytes are no layout, and what is written for the day is another text
  (`observationDate_layout`, `observationDate_of_sign`).
-/

namespace SeriesFormula

open Decimal Text

/-! ## The grammar -/

/-- Digits, at least one and at most `width`. -/
structure IsNumber (width : ℕ) (ds : List Char) : Prop where
  ne_nil : ds ≠ []
  length_le : ds.length ≤ width
  digits : ∀ d ∈ ds, isDigit d

/-- A year; behind a sign it may have any number of digits. -/
inductive SpellsYear : List Char → ℤ → Prop
  | unsigned {ds : List Char} : IsNumber 4 ds → SpellsYear ds (digitsValue ds)
  | plus {ds : List Char} : IsNumber ds.length ds → SpellsYear ('+' :: ds) (digitsValue ds)
  | minus {ds : List Char} : IsNumber ds.length ds → SpellsYear ('-' :: ds) (-(digitsValue ds : ℤ))

/-- A day with blanks in front of each number. -/
inductive SpellsFreely : List Char → Date → Prop
  | intro {gap₁ gap₂ gap₃ ys ms ds : List Char} {date : Date} : Vacant gap₁ → SpellsYear ys date.year →
      Vacant gap₂ → IsNumber 2 ms → date.month = digitsValue ms →
      Vacant gap₃ → IsNumber 2 ds → date.day = digitsValue ds →
      SpellsFreely (gap₁ ++ (ys ++ '-' :: (gap₂ ++ (ms ++ '-' :: (gap₃ ++ ds))))) date

/-! ## Numbers -/

theorem IsNumber.head {width : ℕ} {ds : List Char} (h : IsNumber width ds) : ∃ d tail, ds = d :: tail ∧ isDigit d := by
  obtain ⟨d, tail, rfl⟩ := List.exists_cons_of_ne_nil h.ne_nil
  exact ⟨d, tail, rfl, h.digits d List.mem_cons_self⟩

namespace Calendar

variable {width n : ℕ} {cs rest : List Char}

/-- What is split off is a number. -/
theorem exists_number (h : splitNumber width cs = some (n, rest)) :
    ∃ ds, cs = ds ++ rest ∧ IsNumber width ds ∧ n = digitsValue ds := by
  unfold splitNumber at h
  dsimp only at h
  split at h
  · cases h
  · rename_i hne
    cases h
    have hp : (cs.take width).takeWhile isDigit <+: cs := (List.takeWhile_prefix _).trans (List.take_prefix _ _)
    refine ⟨_, (List.prefix_iff_eq_append.1 hp).symm, ⟨?_, ?_, List.all_eq_true.1 List.all_takeWhile⟩, rfl⟩
    · simpa using hne
    · exact (List.takeWhile_prefix _).length_le.trans (List.length_take_le _ _)

/-- A number is split off what follows, if that starts with no digit. -/
theorem splitNumber_append {ds : List Char} (hds : IsNumber width ds)
    (hrest : ∀ c tail, rest = c :: tail → isDigit c = false) :
    splitNumber width (ds ++ rest) = some (digitsValue ds, rest) := by
  have hstop : (rest.take (width - ds.length)).takeWhile isDigit = [] := by
    cases rest with
    | nil => simp
    | cons c tail => cases width - ds.length <;> simp [hrest c tail rfl]
  have htake : ((ds ++ rest).take width).takeWhile isDigit = ds := by
    rw [List.take_append, List.take_of_length_le hds.length_le, List.takeWhile_append_of_pos hds.digits, hstop,
      List.append_nil]
  rw [splitNumber, htake, List.drop_left, if_neg (by simpa using hds.ne_nil)]

theorem isBlank_of_isDigit {d : Char} (h : isDigit d) : isBlank d = false :=
  isBlank_of_isLiteralChar (isLiteralChar_of_isDigit h)

/-! ## Years and fields -/

theorem exists_year {year : ℤ} (h : splitYear cs = some (year, rest)) :
    ∃ gap ys, cs = gap ++ (ys ++ rest) ∧ Vacant gap ∧ SpellsYear ys year := by
  obtain ⟨gap, hgap, hcs⟩ := exists_vacant cs
  unfold splitYear at h
  split at h
  · rename_i tail htrim
    obtain ⟨⟨n, _⟩, hn, heq⟩ := Option.map_eq_some_iff.1 h
    cases heq
    obtain ⟨ds, rfl, hds, rfl⟩ := exists_number hn
    exact ⟨gap, '-' :: ds, by rw [hcs, htrim]; rfl, hgap, .minus ⟨hds.ne_nil, Nat.le_refl _, hds.digits⟩⟩
  · rename_i tail htrim
    obtain ⟨⟨n, _⟩, hn, heq⟩ := Option.map_eq_some_iff.1 h
    cases heq
    obtain ⟨ds, rfl, hds, rfl⟩ := exists_number hn
    exact ⟨gap, '+' :: ds, by rw [hcs, htrim]; rfl, hgap, .plus ⟨hds.ne_nil, Nat.le_refl _, hds.digits⟩⟩
  · obtain ⟨⟨n, _⟩, hn, heq⟩ := Option.map_eq_some_iff.1 h
    cases heq
    obtain ⟨ds, htrim, hds, rfl⟩ := exists_number hn
    exact ⟨gap, ds, by rw [hcs, htrim], hgap, .unsigned hds⟩

/-- A year is split off what follows, if that starts with no digit. -/
theorem splitYear_append {gap ys : List Char} {year : ℤ} (hgap : Vacant gap) (hys : SpellsYear ys year)
    (hrest : ∀ c tail, rest = c :: tail → isDigit c = false) :
    splitYear (gap ++ (ys ++ rest)) = some (year, rest) := by
  have hsigned : ∀ {ds : List Char}, IsNumber ds.length ds →
      splitNumber (ds ++ rest).length (ds ++ rest) = some (digitsValue ds, rest) := fun hds =>
    splitNumber_append ⟨hds.ne_nil, by simp, hds.digits⟩ hrest
  cases hys with
  | plus hds =>
    rw [splitYear, List.cons_append, trimStart_append hgap (by decide)]
    exact congrArg (Option.map _) (hsigned hds)
  | minus hds =>
    rw [splitYear, List.cons_append, trimStart_append hgap (by decide)]
    exact congrArg (Option.map _) (hsigned hds)
  | unsigned hds =>
    obtain ⟨d, tail, rfl, hd⟩ := hds.head
    have hmarks := ne_of_isDigit hd
    rw [splitYear, List.cons_append, trimStart_append hgap (isBlank_of_isDigit hd)]
    split
    · rename_i heq
      exact absurd (List.cons.inj heq).1 hmarks.2.2.1
    · rename_i heq
      exact absurd (List.cons.inj heq).1 hmarks.2.1
    · rw [← List.cons_append, splitNumber_append hds hrest, Option.map_some]

theorem exists_field (h : splitField cs = some (n, rest)) :
    ∃ gap ds, cs = gap ++ (ds ++ rest) ∧ Vacant gap ∧ IsNumber 2 ds ∧ n = digitsValue ds := by
  obtain ⟨gap, hgap, hcs⟩ := exists_vacant cs
  obtain ⟨ds, htrim, hds, rfl⟩ := exists_number h
  exact ⟨gap, ds, by rw [hcs, htrim], hgap, hds, rfl⟩

/-- A month or a day is split off what follows, if that starts with no digit. -/
theorem splitField_append {gap ds : List Char} (hgap : Vacant gap) (hds : IsNumber 2 ds)
    (hrest : ∀ c tail, rest = c :: tail → isDigit c = false) :
    splitField (gap ++ (ds ++ rest)) = some (digitsValue ds, rest) := by
  obtain ⟨d, tail, rfl, hd⟩ := hds.head
  rw [splitField, List.cons_append, trimStart_append hgap (isBlank_of_isDigit hd), ← List.cons_append,
    splitNumber_append hds hrest]

theorem splitHyphen_eq_some (h : splitHyphen cs = some rest) : cs = '-' :: rest := by
  unfold splitHyphen at h
  split at h
  · cases h; rfl
  · cases h

/-! ## Dates -/

theorem of?_eq_some {year : ℤ} {month day : ℕ} {date : Date} (h : Date.of? year month day = some date) :
    date.year = year ∧ date.month = month ∧ date.day = day := by
  unfold Date.of? at h
  split at h
  · cases h
    exact ⟨rfl, rfl, rfl⟩
  · cases h

/-- **The reader takes exactly the free spellings.** -/
theorem readDate_eq_some_iff {date : Date} : readDate id cs = some date ↔ SpellsFreely cs date := by
  constructor
  · intro h
    simp only [readDate, Option.bind_eq_bind, Option.bind_eq_some_iff, id] at h
    obtain ⟨⟨year, cs₁⟩, hy, cs₂, h₁, ⟨m, cs₃⟩, hm, cs₄, h₂, ⟨d, cs₅⟩, hd, hend⟩ := h
    dsimp only at h₁ hm h₂ hd hend
    obtain ⟨gap₁, ys, rfl, hgap₁, hys⟩ := exists_year hy
    obtain rfl := splitHyphen_eq_some h₁
    obtain ⟨gap₂, ms, rfl, hgap₂, hms, rfl⟩ := exists_field hm
    obtain rfl := splitHyphen_eq_some h₂
    obtain ⟨gap₃, ds, rfl, hgap₃, hds, rfl⟩ := exists_field hd
    rw [Option.ite_none_right_eq_some, List.isEmpty_iff] at hend
    obtain ⟨rfl, hof⟩ := hend
    obtain ⟨rfl, hmonth, hday⟩ := of?_eq_some hof
    rw [List.append_nil]
    exact .intro hgap₁ hys hgap₂ hms hmonth hgap₃ hds hday
  · rintro ⟨hgap₁, hys, hgap₂, hms, hmonth, hgap₃, hds, hday⟩
    have hhyphen : ∀ (cs : List Char) (c : Char) (tail : List Char), '-' :: cs = c :: tail → isDigit c = false := by
      rintro _ _ _ ⟨⟩
      decide
    have hfield := @splitField_append [] _ _ hgap₃ hds nofun
    rw [List.append_nil] at hfield
    simp only [readDate, splitYear_append hgap₁ hys (hhyphen _), splitField_append hgap₂ hms (hhyphen _), hfield,
      splitHyphen, id, Option.bind_eq_bind, Option.bind_some, List.isEmpty_nil, ↓reduceIte]
    rw [← hmonth, ← hday]
    exact dif_pos date.isDay

end Calendar

/-- **A label is read iff it is a free spelling in ten bytes**, blanks at its ends aside. -/
theorem ofLabel?_eq_some_iff {label : String} {date : Date} : Date.ofLabel? label = some date ↔
    byteLength (trim label.toList) = 10 ∧ SpellsFreely (trim label.toList) date := by
  rw [Date.ofLabel?, Option.ite_none_right_eq_some, Calendar.readDate_eq_some_iff]

/-! ## The layout among the free spellings -/

namespace Calendar

/-- A text without blanks that starts with a digit: it has no sign. -/
def Unsigned (cs : List Char) : Prop := Solid cs ∧ ∃ c rest, cs = c :: rest ∧ isDigit c

instance : DecidablePred Unsigned
  | [] => .isFalse fun ⟨_, _, _, h, _⟩ => nomatch h
  | c :: rest => decidable_of_iff (Solid (c :: rest) ∧ isDigit c) (by simp [Unsigned])

/-- The number of bytes of digits and hyphens is their number. -/
theorem byteLength_of_ascii {cs : List Char} (h : ∀ c ∈ cs, c.val ≤ 127) : byteLength cs = cs.length := by
  induction cs with
  | nil => rfl
  | cons c cs ih =>
    obtain ⟨hc, hcs⟩ := List.forall_mem_cons.1 h
    have hrest := ih hcs
    unfold byteLength at hrest ⊢
    rw [List.foldr_cons, hrest, Char.utf8Size_eq_one_iff.2 hc, List.length_cons]
    omega

theorem byteLength_of_isLiteralChar {cs : List Char} (h : ∀ c ∈ cs, isLiteralChar c) : byteLength cs = cs.length := by
  refine byteLength_of_ascii fun c hc => ?_
  have hliteral := h c hc
  simp only [isLiteralChar, isDigit, Bool.or_eq_true, Bool.and_eq_true, decide_eq_true_eq, beq_iff_eq] at hliteral
  rcases hliteral with ((((⟨-, hle⟩ | rfl) | rfl) | rfl) | rfl) | rfl
  · exact UInt32.le_trans hle (by decide)
  all_goals decide

theorem isLiteralChar_of_hyphens {ys ms ds : List Char} (hys : ∀ c ∈ ys, isDigit c) (hms : ∀ c ∈ ms, isDigit c)
    (hds : ∀ c ∈ ds, isDigit c) : ∀ c ∈ ys ++ '-' :: (ms ++ '-' :: ds), isLiteralChar c := by
  simp only [List.forall_mem_append, List.forall_mem_cons]
  exact ⟨fun c hc => isLiteralChar_of_isDigit (hys c hc), by decide,
    fun c hc => isLiteralChar_of_isDigit (hms c hc), by decide,
    fun c hc => isLiteralChar_of_isDigit (hds c hc)⟩

end Calendar

namespace IsPadded

variable {cs : List Char} (h : IsPadded cs)
include h

/-- The layout has digits and hyphens only. -/
theorem isLiteralChar : ∀ c ∈ cs, isLiteralChar c := by
  obtain ⟨ys, ms, ds, hy, hm, hd, rfl⟩ := h
  exact Calendar.isLiteralChar_of_hyphens hy.2 hm.2 hd.2

theorem unsigned : Calendar.Unsigned cs := by
  refine ⟨fun c hc => isBlank_of_isLiteralChar (h.isLiteralChar c hc), ?_⟩
  obtain ⟨ys, ms, ds, ⟨hlength, hdigits⟩, -, -, rfl⟩ := h
  obtain ⟨y, ys, rfl⟩ := List.exists_cons_of_length_eq_add_one hlength
  exact ⟨y, _, rfl, hdigits y List.mem_cons_self⟩

theorem byteLength_eq : byteLength cs = 10 := by
  rw [Calendar.byteLength_of_isLiteralChar h.isLiteralChar]
  obtain ⟨ys, ms, ds, ⟨hy, -⟩, ⟨hm, -⟩, ⟨hd, -⟩, rfl⟩ := h
  simp [hy, hm, hd]

end IsPadded

/-- The layout is a free spelling without blanks. -/
theorem SpellsDay.freely {cs : List Char} {date : Date} (h : SpellsDay cs date) : SpellsFreely cs date := by
  obtain ⟨hy, hm, hd, hyear, hmonth, hday⟩ := h
  have hnumber : ∀ {n : ℕ} {ds : List Char}, IsNumeral (n + 1) ds → IsNumber (n + 1) ds := fun hds =>
    ⟨List.ne_nil_of_length_eq_add_one hds.1, hds.1.le, hds.2⟩
  have hnone : Vacant [] := nofun
  exact .intro hnone (hyear ▸ .unsigned (hnumber hy)) hnone (hnumber hm) hmonth hnone (hnumber hd) hday

/-- Ten bytes without blanks and sign leave no room for shorter numbers. -/
theorem SpellsFreely.spellsDay {cs : List Char} {date : Date} (h : SpellsFreely cs date)
    (hcs : Calendar.Unsigned cs) (hbytes : byteLength cs = 10) : SpellsDay cs date := by
  obtain ⟨hsolid, c, rest, hhead, hc⟩ := hcs
  obtain @⟨gap₁, gap₂, gap₃, ys, ms, ds, date, hgap₁, hys, hgap₂, hms, hmonth, hgap₃, hds, hday⟩ := h
  simp only [Solid, List.forall_mem_append, List.forall_mem_cons] at hsolid
  obtain ⟨hsolid₁, -, -, hsolid₂, -, -, hsolid₃, -⟩ := hsolid
  obtain rfl := eq_nil_of_vacant hgap₁ hsolid₁
  obtain rfl := eq_nil_of_vacant hgap₂ hsolid₂
  obtain rfl := eq_nil_of_vacant hgap₃ hsolid₃
  simp only [List.nil_append] at hhead hbytes ⊢
  generalize hyear : date.year = year at hys
  cases hys with
  | plus => exact absurd ((List.cons.inj hhead).1 ▸ hc) (by decide)
  | minus => exact absurd ((List.cons.inj hhead).1 ▸ hc) (by decide)
  | unsigned hys =>
    rw [Calendar.byteLength_of_isLiteralChar
      (Calendar.isLiteralChar_of_hyphens hys.digits hms.digits hds.digits)] at hbytes
    simp only [List.length_append, List.length_cons] at hbytes
    have hylen := hys.length_le
    have hmlen := hms.length_le
    have hdlen := hds.length_le
    exact .intro ⟨by omega, hys.digits⟩ ⟨by omega, hms.digits⟩ ⟨by omega, hds.digits⟩ hyear hmonth hday

/-- **The layout is what free spellings of ten bytes without blanks and sign have.** -/
theorem spellsDay_iff {cs : List Char} {date : Date} :
    SpellsDay cs date ↔ (byteLength cs = 10 ∧ SpellsFreely cs date) ∧ Calendar.Unsigned cs :=
  ⟨fun h => ⟨⟨h.isPadded.byteLength_eq, h.freely⟩, h.isPadded.unsigned⟩,
    fun ⟨⟨hbytes, h⟩, hcs⟩ => h.spellsDay hcs hbytes⟩

/-- A label without blanks and sign is read only in the layout. -/
theorem spellsDay_of_ofLabel? {label : String} {date : Date} (hlabel : Calendar.Unsigned label.toList)
    (h : Date.ofLabel? label = some date) : SpellsDay label.toList date := by
  rw [ofLabel?_eq_some_iff, trim_of_solid hlabel.1] at h
  exact spellsDay_iff.2 ⟨h, hlabel⟩

/-! ## The written form among the spellings -/

namespace Date

variable (date : Date)

theorem isLiteralChar_of_mem_chars : ∀ c ∈ date.chars, isLiteralChar c := by
  have hpadded : ∀ width n, ∀ c ∈ padded width n, isLiteralChar c := fun width n =>
    List.forall_mem_append.2 ⟨fun _ hc => isLiteralChar_of_isDigit (isDigit_of_mem_zeros hc),
      fun _ hc => isLiteralChar_of_isDigit (isDigit_of_mem_naturalDigits hc)⟩
  have hyear : ∀ c ∈ yearChars date.year, isLiteralChar c := by
    unfold yearChars
    split
    · exact List.forall_mem_cons.2 ⟨by decide, hpadded _ _⟩
    · split
      · exact List.forall_mem_cons.2 ⟨by decide, hpadded _ _⟩
      · exact hpadded _ _
  simp only [chars, List.forall_mem_append, List.forall_mem_cons]
  exact ⟨⟨hyear, by decide, hpadded _ _⟩, by decide, hpadded _ _⟩

theorem length_padded (width n : ℕ) : width ≤ (padded width n).length := by
  simp only [padded, List.length_append, List.length_replicate]
  omega

/-- What is written has ten bytes for the years of four digits, and more for all others. -/
theorem byteLength_chars : byteLength date.chars = 10 ↔ 0 ≤ date.year ∧ date.year ≤ 9999 := by
  constructor
  · intro hbytes
    rw [Calendar.byteLength_of_isLiteralChar date.isLiteralChar_of_mem_chars] at hbytes
    simp only [chars, List.length_append, List.length_cons] at hbytes
    have hyear := length_padded 4 date.year.natAbs
    have hmonth := length_padded 2 date.month
    have hday := length_padded 2 date.day
    by_contra hout
    unfold yearChars at hbytes
    split at hbytes
    · simp only [List.length_cons] at hbytes
      omega
    · rw [if_pos (by omega), List.length_cons] at hbytes
      omega
  · rintro ⟨hl, hu⟩
    exact (spellsDay_chars hl hu).isPadded.byteLength_eq

/-- **What is written for a day is read as that day iff its year has four digits.** -/
theorem ofLabel?_text : ofLabel? date.text = some date ↔ 0 ≤ date.year ∧ date.year ≤ 9999 := by
  have hsolid : Solid date.chars := fun c hc => isBlank_of_isLiteralChar (date.isLiteralChar_of_mem_chars c hc)
  rw [ofLabel?_eq_some_iff, text, String.toList_ofList, trim_of_solid hsolid, byteLength_chars]
  exact ⟨fun h => h.1, fun h => ⟨h, (spellsDay_chars h.1 h.2).freely⟩⟩

end Date

/-! ## Dates of observations -/

theorem observationDate_eq_ok_iff {label : String} {date : Date} :
    observationDate label = .ok date ↔ Date.ofLabel? label = some date := by
  unfold observationDate
  cases Date.ofLabel? label <;> simp

/-- **Which labels are read as which days.** All free spellings in ten bytes are read, blanks at the ends aside, and all
other labels are refused. Those in the layout `YYYY-MM-DD` are the ones that have no blanks inside and no sign, and they
are what is written for their days, which is read as the same day again; what is written for a year of more than four
digits or below zero is refused. -/
theorem observationDate_layout (label : String) :
    (∀ date, observationDate label = .ok date ↔
      byteLength (trim label.toList) = 10 ∧ SpellsFreely (trim label.toList) date) ∧
    (∀ date, SpellsDay (trim label.toList) date ↔
      observationDate label = .ok date ∧ Calendar.Unsigned (trim label.toList)) ∧
    (∀ date, observationDate label = .ok date →
      (trimmed label = date.text ↔ Calendar.Unsigned (trim label.toList)) ∧
        (observationDate date.text = .ok date ↔ 0 ≤ date.year ∧ date.year ≤ 9999)) ∧
    ((∀ date, observationDate label ≠ .ok date) → observationDate label = .error (.invalidDate label)) := by
  have hok : ∀ date, observationDate label = .ok date ↔
      byteLength (trim label.toList) = 10 ∧ SpellsFreely (trim label.toList) date := fun date => by
    rw [observationDate_eq_ok_iff, ofLabel?_eq_some_iff]
  have hlayout : ∀ date, SpellsDay (trim label.toList) date ↔
      observationDate label = .ok date ∧ Calendar.Unsigned (trim label.toList) := fun date => by
    rw [hok, spellsDay_iff]
  refine ⟨hok, hlayout, fun date hdate => ⟨?_, ?_⟩, fun hnone => ?_⟩
  · have hwritten : trimmed label = date.text ↔ trim label.toList = date.chars := String.ofList_inj
    -- ten bytes are what is written for a year of four digits only
    have hyear : trim label.toList = date.chars → 0 ≤ date.year ∧ date.year ≤ 9999 := fun h =>
      date.byteLength_chars.1 (h ▸ ((hok date).1 hdate).1)
    have hunsigned : Calendar.Unsigned (trim label.toList) ↔ SpellsDay (trim label.toList) date := by
      rw [hlayout, and_iff_right hdate]
    rw [hwritten, hunsigned, spellsDay_iff_chars]
    exact ⟨fun h => ⟨h, hyear h⟩, And.left⟩
  · rw [observationDate_eq_ok_iff, Date.ofLabel?_text]
  · unfold observationDate at hnone ⊢
    split
    · rename_i date hdate
      rw [hdate] at hnone
      exact absurd rfl (hnone date)
    · rfl

/-- A leap day between blanks. -/
theorem observationDate_layout_leap :
    let date : Date := ⟨2020, 2, 29, by decide⟩
    observationDate " 2020-02-29\n" = .ok date ∧ Calendar.Unsigned (trim " 2020-02-29\n".toList) ∧
      SpellsDay (trim " 2020-02-29\n".toList) date ∧ trimmed " 2020-02-29\n" = date.text ∧
      observationDate date.text = .ok date := by
  intro date
  have hdate : observationDate " 2020-02-29\n" = .ok date := rfl
  have hunsigned : Calendar.Unsigned (trim " 2020-02-29\n".toList) := by decide
  obtain ⟨-, hlayout, hwritten, -⟩ := observationDate_layout " 2020-02-29\n"
  obtain ⟨htext, hread⟩ := hwritten date hdate
  exact ⟨hdate, hunsigned, (hlayout date).2 ⟨hdate, hunsigned⟩, htext.2 hunsigned, hread.2 (by decide)⟩

/-- A sign leaves a byte less for the month: the label is read although it has no layout, and is not what is written for
its day. What is written for a year below zero is refused. -/
theorem observationDate_of_sign :
    observationDate "+2020-1-01" = .ok ⟨2020, 1, 1, by decide⟩ ∧
      (∀ date, ¬SpellsDay (trim "+2020-1-01".toList) date) ∧
      trimmed "+2020-1-01" ≠ (⟨2020, 1, 1, by decide⟩ : Date).text ∧
      observationDate "-999-01-01" = .ok ⟨-999, 1, 1, by decide⟩ ∧
      observationDate (⟨-999, 1, 1, by decide⟩ : Date).text = .error (.invalidDate "-0999-01-01") := by
  refine ⟨rfl, fun date h => ?_, by decide, rfl, rfl⟩
  exact absurd h.isPadded.unsigned (by decide)

end SeriesFormula
