import SeriesFormula.Json.Reader
import SeriesFormula.Proofs.Json.Token

/-!
# Written values as documents

- `Json.document` is the document of a value, and its written forms are read as that, with nothing behind it
  (`read_compactChars`, `read_indentedChars`): the tokens of a value take the reader from where a value may stand to
  behind it, whatever brackets are open (`foldl_parts`);
- a bracket takes one of the levels that are left (`inside_bind_grant`), so that what is checked of a value can be
  said by how deep its brackets are nested.
-/

namespace SeriesFormula.Json

/-! ## Reading -/

/-- The document of a number. -/
def numberDocument (x : Float) : Document := (literal? x).elim .null (.number · false)

mutual

/-- The document that a written value is read as. -/
def document : Json → Document
  | null => .null
  | natural n => .number ⟨false, n, 0⟩ true
  | number x => numberDocument x
  | string s => .string (some s.toList) none
  | array items => .array (documents items) none
  | object members => .object (memberDocuments members) .closed

def documents : List Json → List Document
  | [] => []
  | v :: vs => document v :: documents vs

def memberDocuments : List (String × Json) → List (Option (List Char) × Document)
  | [] => []
  | (key, v) :: vs => (some key.toList, document v) :: memberDocuments vs

end

mutual

/-- **The tokens of a value take the reader behind it.** -/
theorem foldl_parts : ∀ (v : Json) (stack : List Frame) (start : Bool),
    (parts v).foldl State.next (.value stack start) = .after v.document stack
  | null, _, _ => rfl
  | natural _, _, _ => rfl
  | number x, stack, start => by
    show State.next (.value stack start) (numberToken x) = .after (numberDocument x) stack
    unfold numberToken numberDocument
    cases literal? x <;> rfl
  | string _, _, _ => rfl
  | array [], _, _ => rfl
  | array (v :: vs), stack, start => by
    show (partsOfItems (v :: vs) ++ [Token.closeArray]).foldl State.next (.value (.array [] :: stack) true) =
      .after (.array (documents (v :: vs)) none) stack
    exact foldl_partsOfItems (v :: vs) (List.cons_ne_nil v vs) [] stack true
  | object [], _, _ => rfl
  | object ((key, v) :: vs), stack, start => by
    show (partsOfMembers ((key, v) :: vs) ++ [Token.closeObject]).foldl State.next (.name stack [] true) =
      .after (.object (memberDocuments ((key, v) :: vs)) .closed) stack
    exact foldl_partsOfMembers ((key, v) :: vs) (List.cons_ne_nil _ vs) [] stack true

/-- The items of an array join those that were read before. -/
theorem foldl_partsOfItems : ∀ (items : List Json), items ≠ [] →
    ∀ (before : List Document) (stack : List Frame) (start : Bool),
    (partsOfItems items ++ [Token.closeArray]).foldl State.next (.value (.array before :: stack) start) =
      .after (.array (before.reverse ++ documents items) none) stack
  | [], h, _, _, _ => absurd rfl h
  | [v], _, before, stack, start => by
    show (parts v ++ [Token.closeArray]).foldl State.next (.value (.array before :: stack) start) = _
    rw [List.foldl_append, foldl_parts v]
    show State.after (.array (v.document :: before).reverse none) stack = _
    rw [List.reverse_cons]
    rfl
  | v :: w :: vs, _, before, stack, start => by
    show (parts v ++ Token.comma :: partsOfItems (w :: vs) ++ [Token.closeArray]).foldl State.next
      (.value (.array before :: stack) start) = _
    rw [List.append_assoc, List.foldl_append, foldl_parts v]
    show (partsOfItems (w :: vs) ++ [Token.closeArray]).foldl State.next
      (.value (.array (v.document :: before) :: stack) false) = _
    rw [foldl_partsOfItems (w :: vs) (List.cons_ne_nil w vs), List.reverse_cons, List.append_assoc]
    rfl

theorem foldl_partsOfMembers : ∀ (members : List (String × Json)), members ≠ [] →
    ∀ (before : List (Option (List Char) × Document)) (stack : List Frame) (start : Bool),
    (partsOfMembers members ++ [Token.closeObject]).foldl State.next (.name stack before start) =
      .after (.object (before.reverse ++ memberDocuments members) .closed) stack
  | [], h, _, _, _ => absurd rfl h
  | [(key, v)], _, before, stack, start => by
    show (parts v ++ [Token.closeObject]).foldl State.next
      (.value (.object before (some key.toList) :: stack) false) = _
    rw [List.foldl_append, foldl_parts v]
    show State.after (.object ((some key.toList, v.document) :: before).reverse .closed) stack = _
    rw [List.reverse_cons]
    rfl
  | (key, v) :: w :: vs, _, before, stack, start => by
    show (parts v ++ Token.comma :: partsOfMembers (w :: vs) ++ [Token.closeObject]).foldl State.next
      (.value (.object before (some key.toList) :: stack) false) = _
    rw [List.append_assoc, List.foldl_append, foldl_parts v]
    show (partsOfMembers (w :: vs) ++ [Token.closeObject]).foldl State.next
      (.name stack ((some key.toList, v.document) :: before) false) = _
    rw [foldl_partsOfMembers (w :: vs) (List.cons_ne_nil w vs), List.reverse_cons, List.append_assoc]
    rfl

end

theorem read_of_tokens {cs : List Char} {v : Json} (h : tokens cs = parts v) : read cs = ⟨v.document, false⟩ := by
  rw [read, h, foldl_parts]
  rfl

/-- **A written value is read as its document**, and nothing is left behind it. -/
theorem read_compactChars (v : Json) : read v.compactChars = ⟨v.document, false⟩ := by
  have h := tokens_compactChars v endsNumber_nil
  rw [List.append_nil, tokens, List.append_nil] at h
  exact read_of_tokens h

/-- A value that is written on several lines is read as the same document. -/
theorem read_indentedChars (v : Json) : read (v.indentedChars 0) = ⟨v.document, false⟩ := by
  have h := tokens_indentedChars v 0 endsNumber_nil
  rw [List.append_nil, tokens, List.append_nil] at h
  exact read_of_tokens h

section

variable {β : Type} (reader : Reader β)

theorem run_of_read {text : String} {document : Document} (h : read text.toList = ⟨document, false⟩) :
    reader.run text = reader ⟨maxLevels, false⟩ document := by
  rw [Reader.run, h]
  cases reader ⟨maxLevels, false⟩ document <;> rfl

/-- The reader of a written value is given its document. -/
theorem run_compact (v : Json) : reader.run v.compact = reader ⟨maxLevels, false⟩ v.document := by
  refine run_of_read reader ?_
  rw [compact, String.toList_ofList, read_compactChars]

theorem run_indented (v : Json) : reader.run v.indented = reader ⟨maxLevels, false⟩ v.document := by
  refine run_of_read reader ?_
  rw [indented, String.toList_ofList, read_indentedChars]

end

/-! ## Numbers -/

/-- A finite number is read as a literal of its value. -/
theorem exists_numberDocument {x : Float} (hx : Decimal.isFinite x) :
    ∃ l, numberDocument x = .number l false ∧ l.value = x := by
  obtain ⟨l, hl, hvalue, -⟩ := exists_literal_of_isFinite hx
  exact ⟨l, by rw [numberDocument, hl]; rfl, hvalue⟩

theorem numberDocument_of_not_isFinite {x : Float} (hx : ¬Decimal.isFinite x) : numberDocument x = .null := by
  rw [numberDocument, (literal?_of_not_isFinite hx).1]
  rfl

/-- A number may be kept for a tag, and so may what is written for one that is not finite. -/
theorem check_number (x : Float) (mode : Mode) : (Json.number x).document.check mode = .ok () := by
  by_cases hx : Decimal.isFinite x
  · obtain ⟨l, hl, rfl⟩ := exists_numberDocument hx
    rw [document, hl, Document.check]
    exact if_pos hx
  · rw [document, numberDocument_of_not_isFinite hx]
    rfl

/-- A natural number that is read is near to a finite number, and so it may be kept. -/
theorem check_natural {n : ℕ} (hn : n ≤ Reader.maxNatural) (mode : Mode) :
    (Json.natural n).document.check mode = .ok () := by
  have hlt : n < 2 ^ 64 := Nat.lt_of_le_of_lt hn (by decide)
  have hfinite : Decimal.isFinite (Decimal.Literal.value ⟨false, n, 0⟩) :=
    Decimal.isFinite_compose (Decimal.nearest_zero_lt_infinityBits (by decide) hlt)
  exact if_pos hfinite

/-! ## Brackets -/

/-- What is said of brackets nested `n` deep where `levels` more may be opened. -/
def grant (n levels : ℕ) : Except ReadError Unit := if n ≤ levels then .ok () else .error (.document .syntactic)

theorem grant_max (m n levels : ℕ) : grant (max m n) levels = grant m levels >>= fun _ => grant n levels := by
  unfold grant
  by_cases hm : m ≤ levels
  · by_cases hn : n ≤ levels
    · rw [if_pos hm, if_pos hn, if_pos (by omega)]
      rfl
    · rw [if_pos hm, if_neg hn, if_neg (by omega)]
      rfl
  · rw [if_neg hm, if_neg (by omega)]
    rfl

/-- A bracket takes one of the levels that are left. -/
theorem inside_bind_grant {n levels : ℕ} {f : Mode → Except ReadError Unit}
    (h : ∀ inner, f ⟨inner, false⟩ = grant n inner) : Mode.inside ⟨levels, false⟩ >>= f = grant (n + 1) levels := by
  cases levels with
  | zero => rfl
  | succ levels =>
    show f ⟨levels, false⟩ = _
    rw [h, grant, grant]
    exact ite_congr (propext Nat.succ_le_succ_iff.symm) (fun _ => rfl) fun _ => rfl

end SeriesFormula.Json
