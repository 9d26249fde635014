import SeriesFormula.Decimal.Literal
import SeriesFormula.Formula.Expr
import SeriesFormula.Formula.Value

/-!
# Reading formulas

Blanks are dropped first. What is left is a call `NAME(…)`, known by its name of capitals and underscores, the
parenthesis behind it and the one at the very end; or an identifier; or a number. The text between the parentheses is
cut at the commas outside of inner parentheses and quotes, and each piece is read by itself, so that a stray
parenthesis makes some piece invalid.
-/

namespace SeriesFormula

namespace Formula

def isNameChar (c : Char) : Bool := ('A' ≤ c && c ≤ 'Z') || c == '_'

/-- The name and the text between the parentheses of a text that looks like a call. -/
def splitCall (cs : List Char) : Option (List Char × List Char) :=
  match cs.takeWhile isNameChar, cs.dropWhile isNameChar with
  | name, '(' :: inner => if name ≠ [] ∧ inner.getLast? = some ')' then some (name, inner.dropLast) else none
  | _, _ => none

/-- Where the search for commas stands: the number of open parentheses, whether a quote is open, and whether the
character before was a backslash. -/
structure CutState where
  depth : Int
  quoted : Bool
  escaped : Bool
  deriving DecidableEq

def CutState.start : CutState := ⟨0, false, false⟩

def CutState.after (st : CutState) (c : Char) : CutState where
  depth := if st.quoted then st.depth else if c = '(' then st.depth + 1 else if c = ')' then st.depth - 1 else st.depth
  quoted := if c = '"' ∧ !st.escaped then !st.quoted else st.quoted
  escaped := c = '\\'

/-- Whether a character is a comma to cut at. -/
def CutState.cuts (st : CutState) (c : Char) : Bool := c = ',' && !st.quoted && st.depth = 0

/-- The piece that a text starts with and the pieces behind it. -/
def cutPieces (st : CutState) : List Char → List Char × List (List Char)
  | [] => ([], [])
  | c :: cs =>
    let (piece, pieces) := cutPieces (st.after c) cs
    if st.cuts c then ([], piece :: pieces) else (c :: piece, pieces)

/-- The arguments in the text between the parentheses of a call; no text holds none. -/
def splitArguments (cs : List Char) : List (List Char) :=
  if cs.isEmpty then []
  else
    let (piece, pieces) := cutPieces .start cs
    piece :: pieces

/-- Whether a text is an identifier: capitals, digits and underscores, no digit in front. -/
def isIdentifier : List Char → Bool
  | [] => false
  | c :: cs => isNameChar c && cs.all fun c => isNameChar c || Decimal.isDigit c

def parseLeaf (cs : List Char) : Except (FormulaError Float) (Expr Float) :=
  if isIdentifier cs then .ok (.identifier (String.ofList cs))
  else
    match Decimal.numeric? cs with
    | some value => .ok (.literal value)
    | none => .error (.invalidExpression (String.ofList cs))

/-- The text between the parentheses is shorter than the call. -/
theorem length_lt_of_splitCall {cs name inner : List Char} (h : splitCall cs = some (name, inner)) :
    inner.length < cs.length := by
  have hlen : (cs.dropWhile isNameChar).length ≤ cs.length := (List.dropWhile_sublist _).length_le
  unfold splitCall at h
  split at h
  · rename_i rest hrest
    split at h
    · obtain ⟨-, rfl⟩ := by simpa using h
      rw [hrest, List.length_cons] at hlen
      rw [List.length_dropLast]
      omega
    · simp at h
  · simp at h

/-- No piece of a text is longer than the text. -/
theorem length_le_of_mem_cutPieces (st : CutState) {cs piece : List Char}
    (h : piece ∈ (cutPieces st cs).1 :: (cutPieces st cs).2) : piece.length ≤ cs.length := by
  induction cs generalizing st piece with
  | nil => simp_all [cutPieces]
  | cons c cs ih =>
    have hp : ∀ p ∈ (cutPieces (st.after c) cs).1 :: (cutPieces (st.after c) cs).2, p.length ≤ cs.length :=
      fun _ hp => ih (st.after c) hp
    simp only [cutPieces, List.length_cons] at h ⊢
    split at h
    · rcases List.mem_cons.1 h with rfl | h
      · exact Nat.zero_le _
      · exact Nat.le_succ_of_le (hp _ h)
    · rcases List.mem_cons.1 h with rfl | h
      · exact Nat.succ_le_succ (hp _ List.mem_cons_self)
      · exact Nat.le_succ_of_le (hp _ (List.mem_cons_of_mem _ h))

/-- An argument is no longer than the text that it is cut from. -/
theorem length_le_of_mem_splitArguments {cs piece : List Char} (h : piece ∈ splitArguments cs) :
    piece.length ≤ cs.length := by
  unfold splitArguments at h
  split at h
  · simp at h
  · exact length_le_of_mem_cutPieces .start h

/-- The expression that a text without blanks consists of; `depth` is the number of calls around it. -/
def parseNode (policy : Policy) (depth : Nat) (cs : List Char) : Except (FormulaError Float) (Expr Float) :=
  match h : splitCall cs with
  | none => parseLeaf cs
  | some (name, inner) => do
    (policy.admitDepth (depth + 1)).mapError .limit
    let args ← (splitArguments inner).attach.mapM fun ⟨piece, _⟩ => parseNode policy (depth + 1) piece
    return .call (String.ofList name) args
termination_by cs.length
decreasing_by
  rename_i hmem
  exact Nat.lt_of_le_of_lt (length_le_of_mem_splitArguments hmem) (length_lt_of_splitCall h)

/-- The expression that a text stands for. -/
def parse (policy : Policy) (formula : String) : Except (FormulaError Float) (Expr Float) := do
  (policy.admitFormula formula).mapError .limit
  let cs := Text.squeeze formula.toList
  if cs.isEmpty then throw .empty
  parseNode policy 0 cs

end Formula

end SeriesFormula
