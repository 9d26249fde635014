import SeriesFormula.Json.Basic
import SeriesFormula.Json.Token
import SeriesFormula.Proofs.Decimal.ReadBack

/-!
# Tokens of written values

A written value is cut into the tokens that it was put together from, be it written without blanks
(`tokens_compactChars`) or on several lines (`tokens_indentedChars`):

- a string is read back from its escaped characters, whatever they are (`scanString_escaped`);
- a numeral is read as its literal, if no character of a literal follows (`tokens_of_numeral`); the numbers of a written
  value are numerals, and those without a numeral are written as `null` (`exists_literal_numberChars`).
-/

namespace SeriesFormula.Json

open Decimal

/-! ## Strings -/

theorem hexValue?_hexDigit {n : ℕ} (h : n < 16) : hexValue? (hexDigit n) = some n := by
  have hall : ∀ n < 16, hexValue? (hexDigit n) = some n := by decide
  exact hall n h

/-- A character that stands for itself in a string. -/
theorem scanString_of_plain {c : Char} (hquote : c ≠ '"') (hslash : c ≠ '\\') (hc : ¬c.toNat < 0x20)
    (rest : List Char) : scanString (c :: rest) = (scanString rest).push (some c) := by
  rw [scanString.eq_def]
  split
  · rename_i h; cases h
  · rename_i h; exact absurd (List.cons.inj h).1 hquote
  · rename_i h; exact absurd (List.cons.inj h).1 hslash
  · rename_i h
    cases h
    rw [if_neg hc]

/-- What stands behind a backslash. -/
theorem scanString_of_scanEscape {cs rest : List Char} {c : Option Char} (h : scanEscape cs = .ok (c, rest)) :
    scanString ('\\' :: cs) = (scanString rest).push c := by
  rw [scanString]
  split
  · rename_i h'; rw [h] at h'; cases h'
  · rename_i h'
    rw [h] at h'
    cases h'
    rfl

/-- A control character is read from its number. -/
theorem scanEscape_control {c : Char} (hc : c.toNat < 0x20) (rest : List Char) :
    scanEscape ('u' :: '0' :: '0' :: hexDigit (c.toNat / 16) :: hexDigit (c.toNat % 16) :: rest) =
      .ok (some c, rest) := by
  have hhigh := hexValue?_hexDigit (n := c.toNat / 16) (by omega)
  have hlow := hexValue?_hexDigit (n := c.toNat % 16) (by omega)
  have hzero : hexValue? '0' = some 0 := by decide
  have hunit : scanUnit ('0' :: '0' :: hexDigit (c.toNat / 16) :: hexDigit (c.toNat % 16) :: rest) =
      .ok (c.toNat, rest) := by
    simp only [scanUnit, hzero, hhigh, hlow, Except.ok.injEq, Prod.mk.injEq, and_true]
    omega
  rw [scanEscape, hunit]
  simp only [bind, Except.bind, pure, Except.pure]
  rw [if_neg (by omega), if_neg (by omega), Char.ofNat_toNat]

/-- A character is read back from its escaped form. -/
theorem scanString_escapeChar (c : Char) (rest : List Char) :
    scanString (escapeChar c ++ rest) = (scanString rest).push (some c) := by
  unfold escapeChar
  split
  case h_8 hquote hslash _ _ _ _ _ =>
    split
    · rename_i hc; exact scanString_of_scanEscape (scanEscape_control hc rest)
    · rename_i hc; exact scanString_of_plain hquote hslash hc rest
  all_goals exact scanString_of_scanEscape rfl

/-- **A string is read back from its escaped characters.** -/
theorem scanString_escaped (cs rest : List Char) :
    scanString (cs.flatMap escapeChar ++ '"' :: rest) = ⟨some cs, none, rest⟩ := by
  induction cs with
  | nil => rw [List.flatMap_nil, List.nil_append, scanString]
  | cons c cs ih =>
    rw [List.flatMap_cons, List.append_assoc, scanString_escapeChar, ih]
    rfl

/-! ## Numbers -/

/-- No character follows that could go on a number. -/
def EndsNumber (rest : List Char) : Prop := ∀ c tail, rest = c :: tail → isLiteralChar c = false

theorem endsNumber_nil : EndsNumber [] := by
  intro c tail h
  cases h

theorem endsNumber_cons {c : Char} {rest : List Char} (h : isLiteralChar c = false) : EndsNumber (c :: rest) := by
  intro c' tail h'
  cases h'
  exact h

section Numbers

variable {rest : List Char}

theorem scanDigits_append {ds : List Char} (hds : ∀ d ∈ ds, isDigit d) (hne : ds ≠ [])
    (hrest : ∀ c tail, rest = c :: tail → isDigit c = false) : scanDigits (ds ++ rest) = .ok (ds, rest) := by
  rw [scanDigits, splitDigits_append hds hrest]
  split
  · rename_i h; exact absurd (congrArg Prod.fst h) hne
  · rfl

/-- The end of a number is neither a digit nor a point nor the mark of an exponent. -/
theorem EndsNumber.head (h : EndsNumber rest) {c : Char} {tail : List Char} (hc : rest = c :: tail) :
    isDigit c = false ∧ c ≠ '.' ∧ ¬(c = 'e' ∨ c = 'E') := by
  have hliteral := h c tail hc
  simp only [isLiteralChar, Bool.or_eq_false_iff, beq_eq_false_iff_ne, ne_eq] at hliteral
  obtain ⟨⟨⟨⟨⟨hd, -⟩, -⟩, hp⟩, he⟩, hE⟩ := hliteral
  exact ⟨hd, hp, not_or.2 ⟨he, hE⟩⟩

/-- What follows the digits of a number, an exponent or its end, starts with no digit and no point. -/
theorem head_of_spellsExponent {exponent : List Char} {e : ℤ} (he : SpellsExponent exponent e) (hrest : EndsNumber rest)
    {c : Char} {tail : List Char} (hc : exponent ++ rest = c :: tail) : isDigit c = false ∧ c ≠ '.' := by
  rcases he.head with rfl | ⟨c', exponent, rfl, hmark⟩
  · exact ⟨(hrest.head hc).1, (hrest.head hc).2.1⟩
  · cases hc
    rcases hmark with rfl | rfl <;> decide

theorem scanExponent_append {exponent : List Char} {e : ℤ} (he : SpellsExponent exponent e) (hrest : EndsNumber rest) :
    scanExponent (exponent ++ rest) = .ok (if exponent.isEmpty then none else some e, rest) := by
  cases he with
  | none =>
    cases rest with
    | nil => rfl
    | cons c tail =>
      rw [List.nil_append, scanExponent, if_neg (hrest.head rfl).2.2]
      rfl
  | @some c sign ds negative hc hsign hne hds =>
    obtain ⟨d, ds, rfl⟩ := List.exists_cons_of_ne_nil hne
    have hd := ne_of_isDigit (hds d List.mem_cons_self)
    have hdigits := scanDigits_append hds hne fun _ _ h => (hrest.head h).1
    rw [List.cons_append] at hdigits
    rw [List.append_assoc, List.cons_append, List.cons_append, scanExponent, if_pos hc,
      splitSign_append hsign hd.2.2.1 hd.2.1]
    simp only [bind, Except.bind]
    rw [hdigits]
    rfl

theorem scanFraction_append {fraction fs : List Char} (hf : SpellsFraction fraction fs)
    (hrest : ∀ c tail, rest = c :: tail → isDigit c = false ∧ c ≠ '.') :
    scanFraction (fraction ++ rest) = .ok (fs, rest) := by
  cases hf with
  | none =>
    rw [List.nil_append, scanFraction.eq_def]
    split
    · rename_i tail; exact absurd rfl (hrest '.' tail rfl).2
    · rfl
  | some hd hne => exact scanDigits_append hd hne fun c tail h => (hrest c tail h).1

/-- Digits with a fraction and an exponent are read as the decimal that they spell. -/
theorem scanNumber_append {cs : List Char} {c : ℕ} {e : ℤ} {whole : Bool} (h : SpellsUnsigned cs c e whole)
    (hrest : EndsNumber rest) (negative : Bool) :
    scanNumber negative (cs ++ rest) = .ok (.number ⟨negative, c, e⟩ whole, rest) := by
  obtain @⟨ds, fraction, fs, exponent, e, hds, hf, he⟩ := h
  have hexponent := fun c tail => @head_of_spellsExponent rest exponent e he hrest c tail
  have hfraction : ∀ c tail, fraction ++ (exponent ++ rest) = c :: tail → isDigit c = false := by
    intro c tail hc
    cases hf with
    | none => exact (hexponent c tail hc).1
    | some _ _ =>
      cases hc
      decide
  have hzero : ¬(ds.head? = some '0' ∧ 1 < ds.length) := fun ⟨hhead, hlength⟩ =>
    Nat.not_lt_of_le (hds.zero hhead) hlength
  rw [List.append_assoc, List.append_assoc, scanNumber, scanDigits_append hds.digits hds.ne_nil hfraction]
  simp only [bind, Except.bind]
  rw [if_neg hzero, scanFraction_append hf hexponent]
  simp only [pure, Except.pure]
  rw [scanExponent_append he hrest]
  have hfs : fs.isEmpty = fraction.isEmpty := by
    cases hf with
    | none => rfl
    | some _ hne => simpa using hne
  cases he with
  | none => simp [hfs]
  | some _ _ _ _ => simp [hfs]

end Numbers

/-! ## Tokens -/

theorem tokens_of_scanToken {c : Char} {cs rest : List Char} {token : Token} (hgap : isGap c = false)
    (h : scanToken c cs = .ok (token, rest)) : tokens (c :: cs) = token :: tokens rest := by
  rw [tokens, if_neg (by simp [hgap])]
  split
  · rename_i h'; rw [h] at h'; cases h'
  · rename_i h'
    rw [h] at h'
    cases h'
    rfl

/-- The character of a bracket, a comma or a colon. -/
def Token.mark? : Token → Option Char
  | openArray => some '['
  | closeArray => some ']'
  | openObject => some '{'
  | closeObject => some '}'
  | comma => some ','
  | colon => some ':'
  | _ => none

theorem tokens_mark {t : Token} {c : Char} (h : t.mark? = some c) (rest : List Char) :
    tokens (c :: rest) = t :: tokens rest := by
  cases t <;> cases h <;> exact tokens_of_scanToken (by decide) rfl

theorem scanToken_of_isDigit {c : Char} (h : isDigit c) (cs : List Char) :
    scanToken c cs = scanNumber false (c :: cs) := by
  unfold scanToken
  split
  case h_12 => rw [if_pos h]
  all_goals exact absurd h (by decide)

theorem isGap_of_isDigit {c : Char} (h : isDigit c) : isGap c = false := by
  cases hgap : isGap c with
  | false => rfl
  | true =>
    simp only [isGap, Bool.or_eq_true, beq_iff_eq] at hgap
    rcases hgap with ((rfl | rfl) | rfl) | rfl <;> exact absurd h (by decide)

/-- **A numeral is read as its literal.** -/
theorem tokens_of_numeral {cs rest : List Char} {l : Literal} {whole : Bool} (h : SpellsNumeral cs l whole)
    (hrest : EndsNumber rest) : tokens (cs ++ rest) = .number l whole :: tokens rest := by
  cases h with
  | minus h => exact tokens_of_scanToken (by decide) (scanNumber_append h hrest true)
  | unsigned h =>
    have hscan := scanNumber_append h hrest false
    obtain ⟨hds, -, -⟩ := h
    obtain ⟨d, ds, rfl⟩ := List.exists_cons_of_ne_nil hds.ne_nil
    have hd := hds.digits d List.mem_cons_self
    exact tokens_of_scanToken (isGap_of_isDigit hd) ((scanToken_of_isDigit hd _).trans hscan)

theorem tokens_null (rest : List Char) : tokens ("null".toList ++ rest) = .null :: tokens rest :=
  tokens_of_scanToken (by decide) rfl

theorem tokens_stringChars (s : String) (rest : List Char) :
    tokens (stringChars s ++ rest) = .string (some s.toList) none :: tokens rest := by
  have hscan := scanString_escaped s.toList rest
  rw [stringChars, List.cons_append, List.cons_append, List.append_assoc, List.singleton_append]
  refine tokens_of_scanToken (by decide) ?_
  rw [scanToken, hscan]
  rfl

theorem tokens_naturalDigits (n : ℕ) {rest : List Char} (hrest : EndsNumber rest) :
    tokens (naturalDigits n ++ rest) = .number ⟨false, n, 0⟩ true :: tokens rest := by
  have h := SpellsUnsigned.intro (isWhole_naturalDigits n) .none .none
  rw [List.append_nil, List.append_nil, digitsValue_naturalDigits] at h
  exact tokens_of_numeral (.unsigned h) hrest

/-- The literal that a number is written as; those that are none or infinite have none. -/
def literal? (x : Float) : Option Literal := Decimal.literal? (numberChars x)

/-- A finite number is written as a numeral of the number. -/
theorem exists_literal_of_isFinite {x : Float} (hx : isFinite x) :
    ∃ l, literal? x = some l ∧ l.value = x ∧ SpellsNumeral (numberChars x) l false := by
  obtain ⟨l, whole, hs, hl, hwhole⟩ := exists_numeral_chars exchange hx
  obtain rfl : whole = false := hwhole rfl
  have hchars : numberChars x = exchange.chars x := if_pos hx
  exact ⟨l, by rw [literal?, hchars, literal?_eq_some_iff.2 hs.spells], hl, by rwa [hchars]⟩

/-- What is not finite is written as `null`. -/
theorem literal?_of_not_isFinite {x : Float} (hx : ¬isFinite x) :
    literal? x = none ∧ numberChars x = "null".toList := by
  have hchars : numberChars x = "null".toList := if_neg hx
  refine ⟨?_, hchars⟩
  rw [literal?, hchars]
  decide

/-- The token of a written number. -/
def numberToken (x : Float) : Token := (literal? x).elim .null (.number · false)

theorem tokens_numberChars (x : Float) {rest : List Char} (hrest : EndsNumber rest) :
    tokens (numberChars x ++ rest) = numberToken x :: tokens rest := by
  by_cases hx : isFinite x
  · obtain ⟨l, hl, -, hs⟩ := exists_literal_of_isFinite hx
    rw [tokens_of_numeral hs hrest, numberToken, hl]
    rfl
  · obtain ⟨hl, hchars⟩ := literal?_of_not_isFinite hx
    rw [hchars, tokens_null, numberToken, hl]
    rfl

/-! ## Written values -/

mutual

/-- The tokens of a written value. -/
def parts : Json → List Token
  | null => [.null]
  | natural n => [.number ⟨false, n, 0⟩ true]
  | number x => [numberToken x]
  | string s => [.string (some s.toList) none]
  | array items => .openArray :: partsOfItems items ++ [.closeArray]
  | object members => .openObject :: partsOfMembers members ++ [.closeObject]

def partsOfItems : List Json → List Token
  | [] => []
  | [v] => parts v
  | v :: vs => parts v ++ .comma :: partsOfItems vs

/-- The tokens of members with commas between them. -/
def partsOfMembers : List (String × Json) → List Token
  | [] => []
  | [(key, v)] => .string (some key.toList) none :: .colon :: parts v
  | (key, v) :: vs => .string (some key.toList) none :: .colon :: parts v ++ .comma :: partsOfMembers vs

end

mutual

/-- **A written value is cut into its tokens.** -/
theorem tokens_compactChars : ∀ (v : Json) {rest : List Char}, EndsNumber rest →
    tokens (v.compactChars ++ rest) = parts v ++ tokens rest
  | null, rest, _ => tokens_null rest
  | natural n, _, hrest => tokens_naturalDigits n hrest
  | number x, _, hrest => tokens_numberChars x hrest
  | string s, rest, _ => tokens_stringChars s rest
  | array items, rest, _ => by
    show tokens ('[' :: (compactItems items ++ [']'] ++ rest)) =
      .openArray :: (partsOfItems items ++ [.closeArray] ++ tokens rest)
    rw [List.append_assoc, List.singleton_append, tokens_mark (t := .openArray) rfl,
      tokens_compactItems items (endsNumber_cons (by decide)), tokens_mark (t := .closeArray) rfl, List.append_assoc,
      List.singleton_append]
  | object members, rest, _ => by
    show tokens ('{' :: (compactMembers members ++ ['}'] ++ rest)) =
      .openObject :: (partsOfMembers members ++ [.closeObject] ++ tokens rest)
    rw [List.append_assoc, List.singleton_append, tokens_mark (t := .openObject) rfl,
      tokens_compactMembers members (endsNumber_cons (by decide)), tokens_mark (t := .closeObject) rfl,
      List.append_assoc, List.singleton_append]

theorem tokens_compactItems : ∀ (items : List Json) {rest : List Char}, EndsNumber rest →
    tokens (compactItems items ++ rest) = partsOfItems items ++ tokens rest
  | [], _, _ => rfl
  | [v], _, hrest => tokens_compactChars v hrest
  | v :: w :: vs, rest, hrest => by
    show tokens (compactChars v ++ ',' :: compactItems (w :: vs) ++ rest) =
      parts v ++ .comma :: partsOfItems (w :: vs) ++ tokens rest
    rw [List.append_assoc, List.cons_append, tokens_compactChars v (endsNumber_cons (by decide)),
      tokens_mark (t := .comma) rfl, tokens_compactItems (w :: vs) hrest, List.append_assoc, List.cons_append]

theorem tokens_compactMembers : ∀ (members : List (String × Json)) {rest : List Char}, EndsNumber rest →
    tokens (compactMembers members ++ rest) = partsOfMembers members ++ tokens rest
  | [], _, _ => rfl
  | [(key, v)], rest, hrest => by
    show tokens (stringChars key ++ ':' :: compactChars v ++ rest) =
      .string (some key.toList) none :: .colon :: (parts v ++ tokens rest)
    rw [List.append_assoc, List.cons_append, tokens_stringChars, tokens_mark (t := .colon) rfl,
      tokens_compactChars v hrest]
  | (key, v) :: w :: vs, rest, hrest => by
    show tokens (stringChars key ++ ':' :: compactChars v ++ ',' :: compactMembers (w :: vs) ++ rest) =
      .string (some key.toList) none :: .colon :: (parts v ++ .comma :: partsOfMembers (w :: vs) ++ tokens rest)
    rw [List.append_assoc, List.append_assoc, List.cons_append, List.cons_append, tokens_stringChars,
      tokens_mark (t := .colon) rfl, tokens_compactChars v (endsNumber_cons (by decide)), tokens_mark (t := .comma) rfl,
      tokens_compactMembers (w :: vs) hrest, List.append_assoc, List.cons_append]

end

/-! ## Written values on several lines -/

/-- Blanks between tokens are passed over. -/
theorem tokens_gaps {gaps : List Char} (h : ∀ c ∈ gaps, isGap c) (rest : List Char) :
    tokens (gaps ++ rest) = tokens rest := by
  induction gaps with
  | nil => rfl
  | cons c gaps ih =>
    obtain ⟨hc, hgaps⟩ := List.forall_mem_cons.1 h
    rw [List.cons_append, tokens, if_pos hc, ih hgaps]

theorem tokens_newline (level : ℕ) (rest : List Char) : tokens (newline level ++ rest) = tokens rest := by
  refine tokens_gaps (fun c hc => ?_) rest
  rcases List.mem_cons.1 hc with rfl | hc
  · decide
  · rw [List.eq_of_mem_replicate hc]
    decide

theorem endsNumber_newline (level : ℕ) (rest : List Char) : EndsNumber (newline level ++ rest) :=
  endsNumber_cons (by decide)

theorem tokens_space (rest : List Char) : tokens (' ' :: rest) = tokens rest :=
  have hgap : ∀ c ∈ [' '], isGap c := List.forall_mem_singleton.2 (by decide)
  tokens_gaps hgap rest

mutual

/-- **A value that is written on several lines is cut into the same tokens.** -/
theorem tokens_indentedChars : ∀ (v : Json) (level : ℕ) {rest : List Char}, EndsNumber rest →
    tokens (v.indentedChars level ++ rest) = parts v ++ tokens rest
  | null, _, rest, _ => tokens_null rest
  | natural n, _, _, hrest => tokens_naturalDigits n hrest
  | number x, _, _, hrest => tokens_numberChars x hrest
  | string s, _, rest, _ => tokens_stringChars s rest
  | array [], _, rest, _ => by
    show tokens ('[' :: ']' :: rest) = .openArray :: .closeArray :: tokens rest
    rw [tokens_mark (t := .openArray) rfl, tokens_mark (t := .closeArray) rfl]
  | array (v :: vs), level, rest, _ => by
    show tokens ('[' :: (indentedItems (level + 1) (v :: vs) ++ newline level ++ [']'] ++ rest)) =
      .openArray :: (partsOfItems (v :: vs) ++ [.closeArray] ++ tokens rest)
    rw [List.append_assoc, List.append_assoc, List.append_assoc, List.singleton_append, List.singleton_append,
      tokens_mark (t := .openArray) rfl, tokens_indentedItems (v :: vs) (level + 1) (endsNumber_newline level _),
      tokens_newline, tokens_mark (t := .closeArray) rfl]
  | object [], _, rest, _ => by
    show tokens ('{' :: '}' :: rest) = .openObject :: .closeObject :: tokens rest
    rw [tokens_mark (t := .openObject) rfl, tokens_mark (t := .closeObject) rfl]
  | object (m :: ms), level, rest, _ => by
    show tokens ('{' :: (indentedMembers (level + 1) (m :: ms) ++ newline level ++ ['}'] ++ rest)) =
      .openObject :: (partsOfMembers (m :: ms) ++ [.closeObject] ++ tokens rest)
    rw [List.append_assoc, List.append_assoc, List.append_assoc, List.singleton_append, List.singleton_append,
      tokens_mark (t := .openObject) rfl, tokens_indentedMembers (m :: ms) (level + 1) (endsNumber_newline level _),
      tokens_newline, tokens_mark (t := .closeObject) rfl]

theorem tokens_indentedItems : ∀ (items : List Json) (level : ℕ) {rest : List Char}, EndsNumber rest →
    tokens (indentedItems level items ++ rest) = partsOfItems items ++ tokens rest
  | [], _, _, _ => rfl
  | [v], level, rest, hrest => by
    show tokens (newline level ++ v.indentedChars level ++ rest) = parts v ++ tokens rest
    rw [List.append_assoc, tokens_newline, tokens_indentedChars v level hrest]
  | v :: w :: vs, level, rest, hrest => by
    show tokens (newline level ++ v.indentedChars level ++ ',' :: indentedItems level (w :: vs) ++ rest) =
      parts v ++ .comma :: partsOfItems (w :: vs) ++ tokens rest
    rw [List.append_assoc, List.append_assoc, List.cons_append, tokens_newline,
      tokens_indentedChars v level (endsNumber_cons (by decide)), tokens_mark (t := .comma) rfl,
      tokens_indentedItems (w :: vs) level hrest, List.append_assoc, List.cons_append]

theorem tokens_indentedMembers : ∀ (members : List (String × Json)) (level : ℕ) {rest : List Char}, EndsNumber rest →
    tokens (indentedMembers level members ++ rest) = partsOfMembers members ++ tokens rest
  | [], _, _, _ => rfl
  | [(key, v)], level, rest, hrest => by
    show tokens (newline level ++ stringChars key ++ ':' :: ' ' :: v.indentedChars level ++ rest) =
      .string (some key.toList) none :: .colon :: (parts v ++ tokens rest)
    rw [List.append_assoc, List.append_assoc, List.cons_append, List.cons_append, tokens_newline, tokens_stringChars,
      tokens_mark (t := .colon) rfl, tokens_space, tokens_indentedChars v level hrest]
  | (key, v) :: w :: vs, level, rest, hrest => by
    show tokens (newline level ++ stringChars key ++ ':' :: ' ' :: v.indentedChars level ++
        ',' :: indentedMembers level (w :: vs) ++ rest) =
      .string (some key.toList) none :: .colon :: (parts v ++ .comma :: partsOfMembers (w :: vs) ++ tokens rest)
    rw [List.append_assoc, List.append_assoc, List.append_assoc, List.cons_append, List.cons_append, List.cons_append,
      tokens_newline, tokens_stringChars, tokens_mark (t := .colon) rfl, tokens_space,
      tokens_indentedChars v level (endsNumber_cons (by decide)), tokens_mark (t := .comma) rfl,
      tokens_indentedMembers (w :: vs) level hrest, List.append_assoc, List.cons_append]

end

end SeriesFormula.Json
