import SeriesFormula.Proofs.Decimal.Spelling
import SeriesFormula.Proofs.Text.Bytes

/-!
# Scanning literals

A text is also tested by a cursor that moves over its bytes: over a sign, digits, a point with digits and an exponent
(`scans`). Before each move the cursor stands in front of what the reader of literals has left (`Before`), so that both
accept the same bytes (`scans_eq`); and bytes make up a literal only where they are characters
(`literal?_bytes`). What is accepted is never refused by a reader that knows more spellings (`standard?_of_spells`).
-/

namespace SeriesFormula.Decimal

/-! ## The cursor -/

section

variable (bytes : List UInt8)

/-- The byte at a position, as the character with its number. -/
def char? (i : ℕ) : Option Char := bytes[i]?.map Char.ofUInt8

/-- The position behind a sign, if there is one. -/
def skipSign (i : ℕ) : ℕ := if char? bytes i = some '+' ∨ char? bytes i = some '-' then i + 1 else i

/-- The position behind the digits. -/
def skipDigits (i : ℕ) : ℕ :=
  if i < bytes.length ∧ (char? bytes i).any isDigit then skipDigits (i + 1) else i
termination_by bytes.length - i

/-- Whether the bytes from a position on are an exponent or none. -/
def scansExponent (i : ℕ) : Bool :=
  if char? bytes i = some 'e' ∨ char? bytes i = some 'E' then
    let digits := skipSign bytes (i + 1)
    let last := skipDigits bytes digits
    if last = digits then false else last = bytes.length
  else i = bytes.length

/-- Whether bytes are those of a literal. -/
def scans : Bool :=
  let start := skipSign bytes 0
  let point := skipDigits bytes start
  let behind := if char? bytes point = some '.' then skipDigits bytes (point + 1) else point
  let fraction := if char? bytes point = some '.' then behind - (point + 1) else 0
  if point - start + fraction = 0 then false else scansExponent bytes behind

end

variable {bytes : List UInt8} {i : ℕ} {c : Char} {cs : List Char}

/-- The cursor stands in front of the rest of the bytes. -/
structure Before (bytes : List UInt8) (i : ℕ) (cs : List Char) : Prop where
  le : i ≤ bytes.length
  drop : (bytes.map Char.ofUInt8).drop i = cs

namespace Before

theorem zero (bytes : List UInt8) : Before bytes 0 (bytes.map Char.ofUInt8) := ⟨Nat.zero_le _, rfl⟩

/-- What is left is as long as there are bytes. -/
theorem length (h : Before bytes i cs) : i + cs.length = bytes.length := by
  rw [← h.drop, List.length_drop, List.length_map]
  exact Nat.add_sub_cancel' h.le

theorem append {ds rest : List Char} (h : Before bytes i (ds ++ rest)) : Before bytes (i + ds.length) rest where
  le := by
    have := h.length
    rw [List.length_append] at this
    omega
  drop := by rw [← List.drop_drop, h.drop, List.drop_left]

theorem next (h : Before bytes i (c :: cs)) : Before bytes (i + 1) cs :=
  (show Before bytes i ([c] ++ cs) from h).append

theorem char?_eq (h : Before bytes i cs) : char? bytes i = cs.head? := by
  rw [char?, ← List.getElem?_map, ← h.drop, List.head?_drop]

theorem last (h : Before bytes i cs) : i = bytes.length ↔ cs = [] := by
  rw [← h.length, Nat.left_eq_add, List.length_eq_zero_iff]

theorem skipSign (h : Before bytes i cs) : Before bytes (skipSign bytes i) (splitSign cs).2 := by
  rw [Decimal.skipSign, h.char?_eq]
  cases cs with
  | nil => exact h
  | cons c cs =>
    by_cases hsign : c = '+' ∨ c = '-'
    · rw [if_pos (by simpa using hsign)]
      rcases hsign with rfl | rfl <;> exact h.next
    · rw [if_neg (by simpa using hsign), splitSign_of_head (fun hm => hsign (.inr hm)) fun hp => hsign (.inl hp)]
      exact h

/-- The cursor moves over as many digits as are split off. -/
theorem skipDigits_eq (h : Before bytes i cs) : skipDigits bytes i = i + (splitDigits cs).1.length := by
  induction cs generalizing i with
  | nil =>
    rw [Decimal.skipDigits, if_neg fun hi => hi.1.ne (h.last.2 rfl)]
    rfl
  | cons c cs ih =>
    have hlt : i < bytes.length := lt_of_le_of_ne h.le (mt h.last.1 (List.cons_ne_nil c cs))
    rw [Decimal.skipDigits, h.char?_eq, List.head?_cons, Option.any_some, splitDigits]
    by_cases hc : isDigit c
    · rw [if_pos ⟨hlt, hc⟩, ih h.next, List.takeWhile_cons_of_pos hc, List.length_cons, splitDigits]
      dsimp only
      omega
    · rw [if_neg fun hi => hc hi.2, List.takeWhile_cons_of_neg hc]
      rfl

theorem skipDigits (h : Before bytes i cs) : Before bytes (skipDigits bytes i) (splitDigits cs).2 := by
  rw [h.skipDigits_eq]
  exact append ((splitDigits_spec cs).2 ▸ h)

/-- The cursor moves over a point and the digits behind it. -/
theorem fraction (h : Before bytes i cs) (hpoint : char? bytes i = some '.') :
    Before bytes (Decimal.skipDigits bytes (i + 1)) (splitFraction cs).2 ∧
      Decimal.skipDigits bytes (i + 1) = i + 1 + (splitFraction cs).1.length := by
  rw [h.char?_eq] at hpoint
  obtain ⟨tail, rfl⟩ := List.head?_eq_some_iff.1 hpoint
  exact ⟨h.next.skipDigits, h.next.skipDigits_eq⟩

theorem splitFraction_eq (h : Before bytes i cs) (hpoint : char? bytes i ≠ some '.') : splitFraction cs = ([], cs) := by
  rw [h.char?_eq] at hpoint
  refine splitFraction_of_head ?_
  rintro tail rfl
  exact hpoint rfl

/-- The cursor moves over an exponent to the end of the bytes. -/
theorem scansExponent_eq (h : Before bytes i cs) : scansExponent bytes i = (exponent? cs).isSome := by
  rw [scansExponent, h.char?_eq]
  cases cs with
  | nil =>
    rw [if_neg (by simp)]
    exact decide_eq_true (h.last.2 rfl)
  | cons c cs =>
    simp only [List.head?_cons, Option.some_inj, exponent?]
    split
    · -- the exponent is accepted iff digits are left and nothing else
      have hds := h.next.skipSign
      generalize (splitSign cs).1 = negative at *
      generalize (splitSign cs).2 = ds at *
      have hrest : (splitDigits ds).2 = [] ↔ ds.all isDigit := by
        rw [splitDigits, List.dropWhile_eq_nil_iff, List.all_eq_true]
      have hlast := hds.skipDigits.last
      have hempty : Decimal.skipDigits bytes (Decimal.skipSign bytes (i + 1)) = Decimal.skipSign bytes (i + 1) ↔
          (splitDigits ds).1 = [] := by rw [hds.skipDigits_eq, Nat.add_eq_left, List.length_eq_zero_iff]
      have hsplit := (splitDigits_spec ds).2
      simp only [hempty, hlast, hrest]
      by_cases hall : ds.all isDigit
      · rw [hrest.2 hall, List.append_nil] at hsplit
        rw [← hsplit]
        cases ds <;> simp [hall]
      · simp [hall]
    · exact decide_eq_false (mt h.last.1 (List.cons_ne_nil c cs))

end Before

/-- **The cursor and the reader accept the same bytes.** -/
theorem scans_eq (bytes : List UInt8) : scans bytes = (literal? (bytes.map Char.ofUInt8)).isSome := by
  obtain ⟨negative, unsigned, hs⟩ : ∃ negative unsigned, splitSign (bytes.map Char.ofUInt8) = (negative, unsigned) :=
    ⟨_, _, rfl⟩
  obtain ⟨whole, behind, hw⟩ : ∃ whole behind, splitDigits unsigned = (whole, behind) := ⟨_, _, rfl⟩
  obtain ⟨fraction, exponent, hf⟩ : ∃ fraction exponent, splitFraction behind = (fraction, exponent) := ⟨_, _, rfl⟩
  have hstart := (Before.zero bytes).skipSign
  rw [hs] at hstart
  have hpoint := hstart.skipDigits
  have hwhole := hstart.skipDigits_eq
  rw [hw] at hpoint hwhole
  rw [literal?_of_split hs hw hf, scans]
  generalize skipSign bytes 0 = start at *
  generalize skipDigits bytes start = point at *
  have hnil : whole ++ fraction = [] ↔ whole.length + fraction.length = 0 := by
    rw [← List.length_eq_zero_iff, List.length_append]
  dsimp only at hwhole
  by_cases hpointed : char? bytes point = some '.'
  · obtain ⟨hbehind, hlength⟩ := hpoint.fraction hpointed
    rw [hf] at hbehind hlength
    dsimp only at hlength
    have hdigits : point - start + (skipDigits bytes (point + 1) - (point + 1)) = whole.length + fraction.length := by
      omega
    simp only [if_pos hpointed, hdigits, hbehind.scansExponent_eq, hnil]
    split <;> simp
  · obtain ⟨rfl, rfl⟩ := Prod.mk.inj ((hpoint.splitFraction_eq hpointed).symm.trans hf)
    have hdigits : point - start = whole.length := by omega
    simp only [if_neg hpointed, hdigits, hpoint.scansExponent_eq, hnil, List.length_nil]
    split <;> simp

/-! ## Bytes and characters -/

/-- The characters of a literal are their own bytes. -/
theorem toNat_lt_of_isLiteralChar {c : Char} (h : isLiteralChar c) : c.toNat < 0x80 := by
  simp only [isLiteralChar, isDigit, Bool.or_eq_true, Bool.and_eq_true, decide_eq_true_eq, beq_iff_eq] at h
  rcases h with ((((⟨-, hu⟩ | rfl) | rfl) | rfl) | rfl) | rfl
  · have hu : c.toNat ≤ 0x39 := hu
    omega
  all_goals decide

/-- **Bytes make up a literal only where they are characters.** -/
theorem literal?_bytes (s : String) : literal? ((Text.bytes s).map Char.ofUInt8) = literal? s.toList := by
  by_cases h : ∀ c ∈ s.toList, (String.utf8EncodeChar c).map Char.ofUInt8 = [c]
  · have hbytes : (Text.bytes s).map Char.ofUInt8 = s.toList := by
      rw [Text.bytes, List.map_flatMap]
      exact (List.flatMap_congr h).trans (List.flatMap_singleton' _)
    rw [hbytes]
  · -- a character of several bytes is none of a literal, and neither are its bytes
    simp only [not_forall] at h
    obtain ⟨c, hc, hne⟩ := h
    obtain ⟨hlarge, hbytes⟩ := (Text.encode_cases c).resolve_left hne
    obtain ⟨b, hb⟩ := List.exists_mem_of_ne_nil _ (String.utf8EncodeChar_ne_nil (c := c))
    have hnone : literal? ((Text.bytes s).map Char.ofUInt8) = none := Option.eq_none_iff_forall_ne_some.2 fun l hl => by
      have hmem : Char.ofUInt8 b ∈ (Text.bytes s).map Char.ofUInt8 :=
        List.mem_map_of_mem (List.mem_flatMap.2 ⟨c, hc, hb⟩)
      exact absurd (toNat_lt_of_isLiteralChar ((literal?_eq_some_iff.1 hl).isLiteralChar _ hmem)) (not_lt_of_ge (hbytes b hb))
    have hchars : literal? s.toList = none := Option.eq_none_iff_forall_ne_some.2 fun l hl =>
      absurd (toNat_lt_of_isLiteralChar ((literal?_eq_some_iff.1 hl).isLiteralChar c hc)) (not_lt_of_ge hlarge)
    rw [hnone, hchars]

/-! ## The standard reader -/

/-- The float of a text in the usual spellings: a literal, which may overflow, or a word for an infinity or for no
number, whatever the case of its letters. -/
def standard? (cs : List Char) : Option Float :=
  let (negative, unsigned) := splitSign cs
  let word := unsigned.map Char.toLower
  if word = ['i', 'n', 'f'] ∨ word = ['i', 'n', 'f', 'i', 'n', 'i', 't', 'y'] then some (compose negative infinityBits)
  else if word = ['n', 'a', 'n'] then some (0.0 / 0.0)
  else (literal? cs).map Literal.value

/-- What starts with a digit or a point is no word. -/
theorem map_toLower_ne {c : Char} {cs ds : List Char} {d : Char} (hc : isDigit c ∨ c = '.') (hd : 'a' ≤ d) :
    (c :: cs).map Char.toLower ≠ d :: ds := by
  have hle : c.toNat ≤ 0x39 := by
    rcases hc with hc | rfl
    · simp only [isDigit, Bool.and_eq_true, decide_eq_true_eq] at hc
      exact hc.2
    · decide
  have hlower : c.toLower = c := dif_neg fun hcapital => by
    have hge : 0x41 ≤ c.toNat := hcapital.1
    omega
  intro h
  rw [List.map_cons, hlower] at h
  have hd : 0x61 ≤ d.toNat := hd
  rw [(List.cons.inj h).1] at hle
  omega

/-- A literal is no word. -/
theorem standard?_of_spells {cs : List Char} {l : Literal} (h : Spells cs l) : standard? cs = some l.value := by
  have hl := literal?_eq_some_iff.2 h
  obtain ⟨c, tail, hsplit, hc⟩ : ∃ c tail, (splitSign cs).2 = c :: tail ∧ (isDigit c ∨ c = '.') := by
    obtain @⟨sign, coefficient, exponent, negative, n, k, e, hs, hc, he⟩ := h
    obtain ⟨c, rest, rfl, hhead⟩ := hc.head
    have hm : c ≠ '-' ∧ c ≠ '+' := by
      rcases hhead with h | rfl
      · exact ⟨(ne_of_isDigit h).2.2.1, (ne_of_isDigit h).2.1⟩
      · decide
    rw [List.append_assoc]
    exact ⟨c, rest ++ exponent, congrArg Prod.snd (splitSign_append hs hm.1 hm.2), hhead⟩
  unfold standard?
  dsimp only
  rw [hsplit, if_neg, if_neg (map_toLower_ne hc (by decide)), hl]
  · rfl
  · rintro (hword | hword)
    · exact map_toLower_ne hc (by decide) hword
    · exact map_toLower_ne hc (by decide) hword

/-- The number of a text by the cursor and the standard reader. -/
def scanned? (s : String) : Option Float :=
  if scans (Text.bytes (Text.trimmed s)) then (standard? (Text.trim s.toList)).filter isFinite else none

theorem scans_trimmed (s : String) : scans (Text.bytes (Text.trimmed s)) = (literal? (Text.trim s.toList)).isSome := by
  rw [scans_eq, literal?_bytes, Text.trimmed, String.toList_ofList]

/-- **The cursor and the standard reader find the number of a text.** -/
theorem scanned?_eq (s : String) : scanned? s = numeric? s.toList := by
  rw [scanned?, scans_trimmed, numeric?]
  cases hl : literal? (Text.trim s.toList) with
  | none => rfl
  | some l =>
    rw [standard?_of_spells (literal?_eq_some_iff.1 hl)]
    rfl

end SeriesFormula.Decimal
