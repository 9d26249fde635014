import SeriesFormula.Decimal.Literal

/-!
# Tokens of documents

`Json.tokens` cuts a text into brackets, commas, colons, strings, numbers and words. A part that is no token ends the
list with a token that says how it fails: by its characters, or because the text ends too early.
-/

namespace SeriesFormula.Json

/-- How a text fails to be a document. -/
inductive Fault where
  /-- A character that cannot stand where it does. -/
  | misplaced
  /-- The text ends too early. -/
  | early
  /-- The text ends inside of a number. -/
  | unfinished
  deriving DecidableEq, Repr

/-- A part of a text. -/
inductive Token where
  | openArray
  | closeArray
  | openObject
  | closeObject
  | comma
  | colon
  | null
  | bool (value : Bool)
  /-- A number; `whole` if it has neither fraction nor exponent. -/
  | number (literal : Decimal.Literal) (whole : Bool)
  /-- A string; without content if it holds half of a surrogate pair, and with a fault if it does not end well. -/
  | string (content : Option (List Char)) (cut : Option Fault)
  /-- What is none of these. -/
  | broken (fault : Fault)
  deriving DecidableEq

/-! ## Strings -/

def hexValue? (c : Char) : Option Nat :=
  if '0' ≤ c ∧ c ≤ '9' then some (c.toNat - '0'.toNat)
  else if 'a' ≤ c ∧ c ≤ 'f' then some (c.toNat - 'a'.toNat + 10)
  else if 'A' ≤ c ∧ c ≤ 'F' then some (c.toNat - 'A'.toNat + 10)
  else none

def scanUnit : List Char → Except Fault (Nat × List Char)
  | a :: b :: c :: d :: rest =>
    match hexValue? a, hexValue? b, hexValue? c, hexValue? d with
    | some a, some b, some c, some d => .ok (((a * 16 + b) * 16 + c) * 16 + d, rest)
    | _, _, _, _ => .error .misplaced
  | cs => .error (if 4 ≤ Text.byteLength cs then .misplaced else .early)

/-- Reads what follows a backslash: a character, or `none` for half of a surrogate pair. -/
def scanEscape : List Char → Except Fault (Option Char × List Char)
  | [] => .error .early
  | '"' :: cs => .ok (some '"', cs)
  | '\\' :: cs => .ok (some '\\', cs)
  | '/' :: cs => .ok (some '/', cs)
  | 'b' :: cs => .ok (some '\x08', cs)
  | 'f' :: cs => .ok (some '\x0c', cs)
  | 'n' :: cs => .ok (some '\n', cs)
  | 'r' :: cs => .ok (some '\r', cs)
  | 't' :: cs => .ok (some '\t', cs)
  | 'u' :: cs => do
    let (high, rest) ← scanUnit cs
    if 0xD800 ≤ high ∧ high < 0xDC00 then
      match rest with
      | [] | ['\\'] => throw .early
      | '\\' :: 'u' :: more =>
        let (low, more) ← scanUnit more
        if 0xDC00 ≤ low ∧ low < 0xE000 then
          return (some (Char.ofNat (0x10000 + (high - 0xD800) * 0x400 + (low - 0xDC00))), more)
        else return (none, rest)
      | _ => return (none, rest)
    else if 0xDC00 ≤ high ∧ high < 0xE000 then return (none, rest)
    else return (some (Char.ofNat high), rest)
  | _ => .error .misplaced

/-- What a string holds, how it fails to end, and the text behind it. -/
structure StringScan where
  content : Option (List Char)
  cut : Option Fault
  rest : List Char

/-- The scan of a string with one more character in front. -/
def StringScan.push (c : Option Char) (scan : StringScan) : StringScan :=
  { scan with content := c.bind fun c => scan.content.map (c :: ·) }

/-- What is left behind four digits is no longer than the text. -/
theorem length_le_of_scanUnit {cs rest : List Char} {n : Nat} (h : scanUnit cs = .ok (n, rest)) :
    rest.length ≤ cs.length := by
  unfold scanUnit at h
  split at h
  · split at h
    · obtain ⟨-, rfl⟩ := by simpa using h
      simp only [List.length_cons]
      omega
    · simp at h
  · simp at h

/-- What is left behind an escape is no longer than the text. -/
theorem length_le_of_scanEscape {cs rest : List Char} {c : Option Char} (h : scanEscape cs = .ok (c, rest)) :
    rest.length ≤ cs.length := by
  unfold scanEscape at h
  split at h
  case h_10 cs =>
    cases hu : scanUnit cs with
    | error f => simp [hu, bind, Except.bind] at h
    | ok p =>
      obtain ⟨high, more⟩ := p
      have hlen := length_le_of_scanUnit hu
      simp only [hu, bind, Except.bind] at h
      split at h
      · split at h
        · simp [throw, throwThe, MonadExceptOf.throw] at h
        · simp [throw, throwThe, MonadExceptOf.throw] at h
        · rename_i last
          cases hl : scanUnit last with
          | error f => simp [hl] at h
          | ok q =>
            have hlen' := length_le_of_scanUnit hl
            simp only [hl] at h
            split at h <;>
              · obtain ⟨-, rfl⟩ := by simpa [pure, Except.pure] using h
                simp only [List.length_cons] at hlen ⊢
                omega
        · obtain ⟨-, rfl⟩ := by simpa [pure, Except.pure] using h
          simp only [List.length_cons]
          omega
      · split at h <;>
          · obtain ⟨-, rfl⟩ := by simpa [pure, Except.pure] using h
            simp only [List.length_cons]
            omega
  all_goals simp_all

/-- Reads the rest of a string whose quote has been read. -/
def scanString : List Char → StringScan
  | [] => ⟨some [], some .early, []⟩
  | '"' :: cs => ⟨some [], none, cs⟩
  | '\\' :: cs =>
    match _h : scanEscape cs with
    | .error fault => ⟨some [], some fault, []⟩
    | .ok (c, rest) => (scanString rest).push c
  | c :: cs => if c.toNat < 0x20 then ⟨some [], some .misplaced, []⟩ else (scanString cs).push (some c)
termination_by cs => cs.length
decreasing_by
  · exact Nat.lt_succ_of_le (length_le_of_scanEscape _h)
  · exact Nat.lt_succ_self _

/-- What is left behind a string is no longer than the text. -/
theorem length_rest_scanString_le (cs : List Char) : (scanString cs).rest.length ≤ cs.length := by
  fun_induction scanString cs with
  | case1 => exact Nat.le_refl _
  | case2 cs => exact Nat.le_succ _
  | case3 cs fault h => exact Nat.zero_le _
  | case4 cs c rest h ih => exact Nat.le_trans ih (Nat.le_succ_of_le (length_le_of_scanEscape h))
  | case5 c cs _ _ hc => exact Nat.zero_le _
  | case6 c cs _ _ hc ih => exact Nat.le_succ_of_le ih

/-! ## Numbers and words -/

/-- The fault of a text where a digit should stand. -/
def digitFault : List Char → Fault
  | [] => .unfinished
  | _ => .misplaced

def scanDigits (cs : List Char) : Except Fault (List Char × List Char) :=
  match Decimal.splitDigits cs with
  | ([], rest) => .error (digitFault rest)
  | found => .ok found

def scanFraction : List Char → Except Fault (List Char × List Char)
  | '.' :: cs => scanDigits cs
  | cs => .ok ([], cs)

def scanExponent : List Char → Except Fault (Option Int × List Char)
  | [] => .ok (none, [])
  | c :: cs =>
    if c = 'e' ∨ c = 'E' then do
      let (negative, cs) := Decimal.splitSign cs
      let (ds, rest) ← scanDigits cs
      let e : Int := Decimal.digitsValue ds
      return (some (if negative then -e else e), rest)
    else .ok (none, c :: cs)

/-- Reads a number without its sign. A zero in front stands alone. -/
def scanNumber (negative : Bool) (cs : List Char) : Except Fault (Token × List Char) := do
  let (whole, rest) ← scanDigits cs
  if whole.head? = some '0' ∧ 1 < whole.length then throw .misplaced
  let (fraction, rest) ← scanFraction rest
  let (e, rest) ← scanExponent rest
  let literal := ⟨negative, Decimal.digitsValue (whole ++ fraction), e.getD 0 - fraction.length⟩
  return (.number literal (fraction.isEmpty && e.isNone), rest)

def scanWord (token : Token) : List Char → List Char → Except Fault (Token × List Char)
  | [], cs => .ok (token, cs)
  | w :: ws, c :: cs => if c = w then scanWord token ws cs else .error .misplaced
  | _ :: _, [] => .error .early

/-! ## Tokens -/

def isGap (c : Char) : Bool := c == ' ' || c == '\n' || c == '\t' || c == '\r'

/-- Reads a token that starts with `c` and goes on in `cs`. -/
def scanToken (c : Char) (cs : List Char) : Except Fault (Token × List Char) :=
  match c with
  | '[' => .ok (.openArray, cs)
  | ']' => .ok (.closeArray, cs)
  | '{' => .ok (.openObject, cs)
  | '}' => .ok (.closeObject, cs)
  | ',' => .ok (.comma, cs)
  | ':' => .ok (.colon, cs)
  | '"' =>
    let scan := scanString cs
    .ok (.string scan.content scan.cut, if scan.cut.isSome then [] else scan.rest)
  | 'n' => scanWord .null "ull".toList cs
  | 't' => scanWord (.bool true) "rue".toList cs
  | 'f' => scanWord (.bool false) "alse".toList cs
  | '-' => scanNumber true cs
  | c => if Decimal.isDigit c then scanNumber false (c :: cs) else .error .misplaced

/-- Digits and what is left behind them make up the text. -/
theorem length_add_length_of_scanDigits {cs ds rest : List Char} (h : scanDigits cs = .ok (ds, rest)) :
    rest.length + ds.length = cs.length ∧ ds ≠ [] := by
  have hlen : (Decimal.splitDigits cs).1.length + (Decimal.splitDigits cs).2.length = cs.length := by
    simp only [Decimal.splitDigits]
    rw [← List.length_append, List.takeWhile_append_dropWhile]
  unfold scanDigits at h
  split at h
  · simp at h
  · rename_i hne
    obtain ⟨rfl, rfl⟩ := by simpa [Prod.ext_iff] using h
    exact ⟨by omega, fun h0 => hne _ (Prod.ext h0 rfl)⟩

/-- What is left behind a fraction is no longer than the text. -/
theorem length_le_of_scanFraction {cs ds rest : List Char} (h : scanFraction cs = .ok (ds, rest)) :
    rest.length ≤ cs.length := by
  unfold scanFraction at h
  split at h
  · have := length_add_length_of_scanDigits h
    simp only [List.length_cons]
    omega
  · obtain ⟨-, rfl⟩ := by simpa using h
    exact Nat.le_refl _

/-- What is left behind a sign is no longer than the text. -/
theorem length_splitSign_le (cs : List Char) : (Decimal.splitSign cs).2.length ≤ cs.length := by
  unfold Decimal.splitSign
  split <;> simp

/-- What is left behind an exponent is no longer than the text. -/
theorem length_le_of_scanExponent {cs rest : List Char} {e : Option Int} (h : scanExponent cs = .ok (e, rest)) :
    rest.length ≤ cs.length := by
  unfold scanExponent at h
  split at h
  · obtain ⟨-, rfl⟩ := by simpa using h
    exact Nat.le_refl _
  · rename_i c cs
    split at h
    · have hs := length_splitSign_le cs
      cases hd : scanDigits (Decimal.splitSign cs).2 with
      | error f => simp [hd, bind, Except.bind] at h
      | ok p =>
        have := length_add_length_of_scanDigits hd
        simp only [hd, bind, Except.bind] at h
        obtain ⟨-, rfl⟩ := by simpa [pure, Except.pure] using h
        simp only [List.length_cons]
        omega
    · obtain ⟨-, rfl⟩ := by simpa using h
      exact Nat.le_refl _

/-- A number takes at least one character. -/
theorem length_lt_of_scanNumber {negative : Bool} {cs rest : List Char} {token : Token}
    (h : scanNumber negative cs = .ok (token, rest)) : rest.length < cs.length := by
  unfold scanNumber at h
  cases hw : scanDigits cs with
  | error f => simp [hw, bind, Except.bind] at h
  | ok p =>
    obtain ⟨hlen, hne⟩ := @length_add_length_of_scanDigits cs p.1 p.2 hw
    have := List.length_pos_iff.2 hne
    simp only [hw, bind, Except.bind] at h
    split at h
    · simp [throw, throwThe, MonadExceptOf.throw] at h
    · cases hf : scanFraction p.2 with
      | error f => simp [hf] at h
      | ok q =>
        have hq := @length_le_of_scanFraction p.2 q.1 q.2 hf
        cases he : scanExponent q.2 with
        | error f => simp [hf, he] at h
        | ok r =>
          have hr := @length_le_of_scanExponent q.2 r.2 r.1 he
          simp only [hf, he, pure, Except.pure] at h
          obtain ⟨-, rfl⟩ := by simpa using h
          omega

/-- What is left behind a word is no longer than the text. -/
theorem length_le_of_scanWord {token token' : Token} {ws cs rest : List Char}
    (h : scanWord token ws cs = .ok (token', rest)) : rest.length ≤ cs.length := by
  induction ws generalizing cs with
  | nil =>
    obtain ⟨-, rfl⟩ := by simpa [scanWord] using h
    exact Nat.le_refl _
  | cons w ws ih =>
    cases cs with
    | nil => simp [scanWord] at h
    | cons c cs =>
      simp only [scanWord] at h
      split at h
      · exact Nat.le_succ_of_le (ih h)
      · simp at h

/-- What is left behind a token is no longer than the text behind its first character. -/
theorem length_le_of_scanToken {c : Char} {cs rest : List Char} {token : Token}
    (h : scanToken c cs = .ok (token, rest)) : rest.length ≤ cs.length := by
  unfold scanToken at h
  split at h
  case h_7 =>
    have := length_rest_scanString_le cs
    obtain ⟨-, rfl⟩ := by simpa using h
    split
    · exact Nat.zero_le _
    · exact this
  case h_8 => exact length_le_of_scanWord h
  case h_9 => exact length_le_of_scanWord h
  case h_10 => exact length_le_of_scanWord h
  case h_11 => exact Nat.le_of_lt (length_lt_of_scanNumber h)
  case h_12 =>
    split at h
    · exact Nat.le_of_lt_succ (length_lt_of_scanNumber h)
    · simp at h
  all_goals simp_all

def tokens : List Char → List Token
  | [] => []
  | c :: cs =>
    if isGap c then tokens cs
    else
      match _h : scanToken c cs with
      | .error fault => [.broken fault]
      | .ok (token, rest) => token :: tokens rest
termination_by cs => cs.length
decreasing_by
  · exact Nat.lt_succ_self _
  · exact Nat.lt_succ_of_le (length_le_of_scanToken _h)

end SeriesFormula.Json
