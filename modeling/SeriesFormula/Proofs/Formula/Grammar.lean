import SeriesFormula.Formula.Parser
import SeriesFormula.Proofs.Decimal.Spelling

/-!
# The grammar of formulas

`Derives cs e` says that the text `cs`, which has no blanks, is a formula with the tree `e`:

    expr       → call | identifier | number
    call       → NAME "(" [expr ("," expr)*] ")"      NAME = [A-Z_]+
    identifier → [A-Z_][A-Z0-9_]*
    number     → a decimal literal of finite value

The relation knows nothing of how a text is cut into pieces. Of a text with a derivation

- each character is one of the grammar's (`Derives.isFormulaChar`), so that there are no blanks (`Derives.solid`), no
  quotes and no backslashes;
- the parentheses are balanced (`Derives.balanced`).
-/

namespace SeriesFormula.Formula

/-! ## Derivations -/

mutual

/-- The text is an expression with the tree. -/
inductive Derives : List Char → Expr Float → Prop
  | call {name inner : List Char} {args : List (Expr Float)} : name ≠ [] → (∀ c ∈ name, isNameChar c) →
      DerivesArguments inner args → Derives (name ++ '(' :: inner ++ [')']) (.call (String.ofList name) args)
  | identifier {c : Char} {cs : List Char} : isNameChar c → (∀ d ∈ cs, isNameChar d ∨ Decimal.isDigit d) →
      Derives (c :: cs) (.identifier (String.ofList (c :: cs)))
  | number {cs : List Char} {l : Decimal.Literal} : Decimal.Spells cs l → Decimal.isFinite l.value →
      Derives cs (.literal l.value)

/-- The text consists of arguments with commas between them. -/
inductive DerivesArguments : List Char → List (Expr Float) → Prop
  | none : DerivesArguments [] []
  | last {cs : List Char} {e : Expr Float} : Derives cs e → DerivesArguments cs [e]
  | more {cs ds : List Char} {e f : Expr Float} {es : List (Expr Float)} : Derives cs e →
      DerivesArguments ds (f :: es) → DerivesArguments (cs ++ ',' :: ds) (e :: f :: es)

end

/-! ## Characters -/

/-- A character of an identifier. -/
theorem isNameChar_or_isDigit {c : Char} {cs : List Char} (hc : isNameChar c)
    (hcs : ∀ d ∈ cs, isNameChar d ∨ Decimal.isDigit d) : ∀ d ∈ c :: cs, isNameChar d ∨ Decimal.isDigit d := by
  intro d hd
  rcases List.mem_cons.1 hd with rfl | hd
  · exact .inl hc
  · exact hcs d hd

/-- A character of names, identifiers and numbers, on which the search for commas does not depend. -/
def isWordChar (c : Char) : Bool := isNameChar c || Decimal.isLiteralChar c

/-- A character that can stand in a formula. -/
def isFormulaChar (c : Char) : Bool := isWordChar c || c == '(' || c == ')' || c == ','

theorem isWordChar_of_isNameChar {c : Char} (h : isNameChar c) : isWordChar c := by simp [isWordChar, h]

theorem isWordChar_of_isLiteralChar {c : Char} (h : Decimal.isLiteralChar c) : isWordChar c := by
  simp [isWordChar, h]

theorem isFormulaChar_of_isWordChar {c : Char} (h : isWordChar c) : isFormulaChar c := by simp [isFormulaChar, h]

/-- An identifier consists of word characters. -/
theorem isWordChar_of_identifier {cs : List Char} (h : ∀ d ∈ cs, isNameChar d ∨ Decimal.isDigit d) :
    ∀ d ∈ cs, isWordChar d := by
  intro d hd
  rcases h d hd with h | h
  · exact isWordChar_of_isNameChar h
  · exact isWordChar_of_isLiteralChar (Decimal.isLiteralChar_of_isDigit h)

/-- A number consists of word characters. -/
theorem isWordChar_of_spells {cs : List Char} {l : Decimal.Literal} (h : Decimal.Spells cs l) :
    ∀ d ∈ cs, isWordChar d := fun d hd => isWordChar_of_isLiteralChar (h.isLiteralChar d hd)

/-- The code of a name's character is that of a capital or of the underscore. -/
theorem toNat_of_isNameChar {c : Char} (h : isNameChar c) : (0x41 ≤ c.toNat ∧ c.toNat ≤ 0x5A) ∨ c.toNat = 0x5F := by
  simp only [isNameChar, Bool.or_eq_true, Bool.and_eq_true, decide_eq_true_eq, beq_iff_eq] at h
  rcases h with ⟨hl, hu⟩ | rfl
  · exact .inl ⟨hl, hu⟩
  · exact .inr rfl

/-- No character of a name can stand in front of a number. -/
theorem isNameChar_of_isDigit {c : Char} (h : Decimal.isDigit c) : isNameChar c = false := by
  cases hc : isNameChar c with
  | false => rfl
  | true =>
    have hn := toNat_of_isNameChar hc
    simp only [Decimal.isDigit, Bool.and_eq_true, decide_eq_true_eq] at h
    have hu : c.toNat ≤ 0x39 := h.2
    omega

/-- Word characters are no blanks. -/
theorem isBlank_of_isWordChar {c : Char} (h : isWordChar c) : Text.isBlank c = false := by
  rcases Bool.or_eq_true_iff.1 h with h | h
  · have := toNat_of_isNameChar h
    exact Text.isBlank_of_printable (by omega) (by omega)
  · exact Decimal.isBlank_of_isLiteralChar h

theorem isBlank_of_isFormulaChar {c : Char} (h : isFormulaChar c) : Text.isBlank c = false := by
  simp only [isFormulaChar, Bool.or_eq_true, beq_iff_eq] at h
  rcases h with ((h | rfl) | rfl) | rfl
  · exact isBlank_of_isWordChar h
  all_goals decide

mutual

/-- Only characters of the grammar stand in a formula. -/
theorem Derives.isFormulaChar : ∀ {cs : List Char} {e : Expr Float}, Derives cs e → ∀ c ∈ cs, isFormulaChar c
  | _, _, .call _ hname hargs, c, hc => by
    simp only [List.mem_append, List.mem_cons, List.not_mem_nil, or_false] at hc
    rcases hc with (hc | rfl | hc) | rfl
    · exact isFormulaChar_of_isWordChar (isWordChar_of_isNameChar (hname c hc))
    · decide
    · exact hargs.isFormulaChar c hc
    · decide
  | _, _, .identifier hhead htail, c, hc =>
    isFormulaChar_of_isWordChar (isWordChar_of_identifier (isNameChar_or_isDigit hhead htail) c hc)
  | _, _, .number hl _, c, hc => isFormulaChar_of_isWordChar (isWordChar_of_spells hl c hc)

theorem DerivesArguments.isFormulaChar : ∀ {cs : List Char} {es : List (Expr Float)}, DerivesArguments cs es →
    ∀ c ∈ cs, Formula.isFormulaChar c
  | _, _, .none, _, hc => by cases hc
  | _, _, .last he, c, hc => he.isFormulaChar c hc
  | _, _, .more he hes, c, hc => by
    simp only [List.mem_append, List.mem_cons] at hc
    rcases hc with hc | rfl | hc
    · exact he.isFormulaChar c hc
    · decide
    · exact hes.isFormulaChar c hc

end

theorem Derives.solid {cs : List Char} {e : Expr Float} (h : Derives cs e) : Text.Solid cs :=
  fun c hc => isBlank_of_isFormulaChar (h.isFormulaChar c hc)

theorem Derives.quote_not_mem {cs : List Char} {e : Expr Float} (h : Derives cs e) : '"' ∉ cs :=
  fun hc => absurd (h.isFormulaChar _ hc) (by decide)

theorem Derives.backslash_not_mem {cs : List Char} {e : Expr Float} (h : Derives cs e) : '\\' ∉ cs :=
  fun hc => absurd (h.isFormulaChar _ hc) (by decide)

theorem Derives.ne_nil {cs : List Char} {e : Expr Float} (h : Derives cs e) : cs ≠ [] := by
  cases h with
  | call _ _ _ => simp
  | identifier _ _ => simp
  | number hl _ => exact hl.ne_nil

/-! ## Parentheses -/

/-- No closing parenthesis stands before the one that it closes, and each is closed. -/
def Balanced (cs : List Char) : Prop :=
  (∀ n, (cs.take n).count ')' ≤ (cs.take n).count '(') ∧ cs.count '(' = cs.count ')'

theorem balanced_append {cs ds : List Char} (hcs : Balanced cs) (hds : Balanced ds) : Balanced (cs ++ ds) := by
  refine ⟨fun n => ?_, ?_⟩
  · have h₁ := hcs.1 n
    have h₂ := hds.1 (n - cs.length)
    rw [List.take_append, List.count_append, List.count_append]
    omega
  · rw [List.count_append, List.count_append, hcs.2, hds.2]

/-- A text in parentheses. -/
theorem balanced_parens {cs : List Char} (h : Balanced cs) : Balanced ('(' :: cs ++ [')']) := by
  refine ⟨fun n => ?_, ?_⟩
  · cases n with
    | zero => simp
    | succ n =>
      have hn := h.1 n
      have hlast : ([')'].take (n - cs.length)).count ')' ≤ 1 :=
        Nat.le_trans List.count_le_length (List.length_take_le' _ _)
      rw [List.cons_append, List.take_succ_cons, List.take_append]
      simp only [List.count_cons, List.count_append, beq_self_eq_true, ↓reduceIte]
      simp
      omega
  · simp [List.count_append, h.2]

theorem balanced_of_forall {cs : List Char} (h : ∀ c ∈ cs, c ≠ '(' ∧ c ≠ ')') : Balanced cs := by
  have hc : ∀ n, (cs.take n).count ')' = 0 := fun n =>
    List.count_eq_zero.2 fun hm => (h _ (List.mem_of_mem_take hm)).2 rfl
  refine ⟨fun n => by rw [hc]; exact Nat.zero_le _, ?_⟩
  rw [List.count_eq_zero.2 fun hm => (h _ hm).1 rfl, List.count_eq_zero.2 fun hm => (h _ hm).2 rfl]

/-- Word characters are no parentheses. -/
theorem balanced_of_isWordChar {cs : List Char} (h : ∀ c ∈ cs, isWordChar c) : Balanced cs :=
  balanced_of_forall fun c hc => by
    constructor <;> rintro rfl <;> exact absurd (h _ hc) (by decide)

mutual

/-- The parentheses of a formula are balanced. -/
theorem Derives.balanced : ∀ {cs : List Char} {e : Expr Float}, Derives cs e → Balanced cs
  | _, _, .call _ hname hargs => by
    rw [List.append_assoc]
    exact balanced_append (balanced_of_isWordChar fun c hc => isWordChar_of_isNameChar (hname c hc))
      (balanced_parens hargs.balanced)
  | _, _, .identifier hc hcs =>
    balanced_of_isWordChar (isWordChar_of_identifier (isNameChar_or_isDigit hc hcs))
  | _, _, .number hl _ => balanced_of_isWordChar (isWordChar_of_spells hl)

theorem DerivesArguments.balanced : ∀ {cs : List Char} {es : List (Expr Float)}, DerivesArguments cs es →
    Balanced cs
  | _, _, .none => balanced_of_forall (by simp)
  | _, _, .last he => he.balanced
  | _, _, .more he hes => by
    have hcomma : Balanced [','] := balanced_of_forall (by simp)
    exact balanced_append he.balanced (balanced_append hcomma hes.balanced)

end

end SeriesFormula.Formula
