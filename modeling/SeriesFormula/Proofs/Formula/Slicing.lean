import Mathlib.Data.Option.Basic
import Mathlib.Data.String.Basic
import SeriesFormula.Proofs.Formula.Reading
import SeriesFormula.Proofs.Text.Bytes

/-!
# Cutting by bytes

Calls and their arguments are also cut at positions of bytes (`callBounds?`, `argumentBounds?`), where reading a byte
may fail, and a position may be out of range or inside of a character (`IsSlice`).

- going over a character's bytes comes to what the search for commas comes to behind the character (`sweep_char`), so
  that the bounds of the arguments are those of its pieces (`argumentBounds?_eq`), and nothing fails;
- a text that is read is passed over by the search, also with blanks in it (`passes_of_parseNode`).

So no cut is at a wrong place, nothing is lost by cutting, and texts that are read are the arguments that they are put
together from (`splitting_lossless`).
-/

namespace SeriesFormula.Formula

open Text (encode_cases)

/-! ## Positions of bytes -/

/-- The bytes of a text, as the characters with their numbers. -/
def encoded (cs : List Char) : List Char := (cs.flatMap String.utf8EncodeChar).map Char.ofUInt8

/-- The bounds are positions in the text at which a character starts or the text ends, the first not behind the second,
and `part` stands between them. -/
def IsSlice (s : String) (bounds : Nat × Nat) (part : List Char) : Prop :=
  bounds.1 ≤ bounds.2 ∧ String.Pos.Raw.IsValid s ⟨bounds.1⟩ ∧ String.Pos.Raw.IsValid s ⟨bounds.2⟩ ∧
    String.Pos.Raw.extract s ⟨bounds.1⟩ ⟨bounds.2⟩ = String.ofList part

/-- Where the search for commas stands when it goes over bytes: the position at which the piece starts, the number of
open parentheses, whether a quote is open, and the bounds of the pieces in front. -/
structure Sweep where
  start : Nat
  depth : Int
  quoted : Bool
  bounds : List (Nat × Nat)

/-- Whether the byte in front of a position is a backslash. -/
def escaped? (bytes : List Char) (i : Nat) : Option Bool :=
  if i = 0 then some false else bytes[i - 1]?.map (· = '\\')

/-- The search behind the byte `b` at the position `i`. -/
def Sweep.step? (bytes : List Char) (sweep : Sweep) (b : Char) (i : Nat) : Option Sweep :=
  if b = '"' then
    (escaped? bytes i).map fun escaped => if escaped then sweep else { sweep with quoted := !sweep.quoted }
  else if b = '(' ∧ !sweep.quoted then some { sweep with depth := sweep.depth + 1 }
  else if b = ')' ∧ !sweep.quoted then some { sweep with depth := sweep.depth - 1 }
  else if b = ',' ∧ !sweep.quoted ∧ sweep.depth = 0 then
    some { sweep with start := i + 1, bounds := sweep.bounds ++ [(sweep.start, i)] }
  else some sweep

/-- The search over bytes, the first of which has the position `i`. -/
def Sweep.run? (bytes : List Char) (sweep : Sweep) (bs : List Char) (i : Nat) : Option Sweep :=
  (bs.zipIdx i).foldlM (fun sweep (b, i) => Sweep.step? bytes sweep b i) sweep

/-- The bounds of the arguments in the text between the parentheses of a call. -/
def argumentBounds? (s : String) : Option (List (Nat × Nat)) :=
  let bytes := encoded s.toList
  if bytes.isEmpty then some []
  else (Sweep.run? bytes ⟨0, 0, false, []⟩ bytes 0).map fun sweep => sweep.bounds ++ [(sweep.start, bytes.length)]

/-- The bounds of the name of a call and of the text between its parentheses. -/
def callBounds? (s : String) : Option (Option ((Nat × Nat) × (Nat × Nat))) :=
  let bytes := encoded s.toList
  let n := (bytes.takeWhile isNameChar).length
  if n = 0 ∨ bytes.length < n + 2 then some none
  else bytes[n]?.map fun b =>
    if b = '(' ∧ s.toList.getLast? = some ')' then some ((0, n), (n + 1, bytes.length - 1)) else none

/-! ## Bytes of characters -/

theorem encoded_append (cs ds : List Char) : encoded (cs ++ ds) = encoded cs ++ encoded ds := by
  rw [encoded, List.flatMap_append, List.map_append, encoded, encoded]

theorem encoded_cons (c : Char) (cs : List Char) : encoded (c :: cs) = encoded [c] ++ encoded cs :=
  encoded_append [c] cs

theorem length_encoded (cs : List Char) : (encoded cs).length = String.utf8Len cs := by
  induction cs with
  | nil => rfl
  | cons c cs ih =>
    rw [encoded_cons, List.length_append, ih, String.utf8Len_cons, encoded, List.length_map, List.flatMap_singleton,
      String.length_utf8EncodeChar, Nat.add_comm]

/-- A byte of other characters, or one of these characters, is no mark of formulas. -/
theorem ne_of_large {c d : Char} (h : 0x80 ≤ c.toNat) (hd : d.toNat < 0x80) : c ≠ d := by
  rintro rfl
  omega

/-- A character is its own byte, or its bytes are above those. -/
theorem encoded_singleton (c : Char) :
    encoded [c] = [c] ∨ 0x80 ≤ c.toNat ∧ encoded [c] ≠ [] ∧ ∀ b ∈ encoded [c], 0x80 ≤ b.toNat := by
  rw [encoded, List.flatMap_singleton]
  refine (encode_cases c).imp_right fun ⟨hc, hbytes⟩ => ⟨hc, ?_, ?_⟩
  · exact List.map_eq_nil_iff.not.2 String.utf8EncodeChar_ne_nil
  · exact List.forall_mem_map.2 hbytes

/-! ## Going over the bytes -/

/-- The state of the search for commas behind a byte. -/
def Sweep.state (sweep : Sweep) (last : Option Char) : CutState := ⟨sweep.depth, sweep.quoted, last = some '\\'⟩

/-- The search behind the character `c` at the position `i`, where it was in the state `st` in front. -/
def Sweep.move (sweep : Sweep) (st : CutState) (c : Char) (i : Nat) : Sweep :=
  let st' := st.after c
  if st.cuts c then ⟨i + 1, st'.depth, st'.quoted, sweep.bounds ++ [(sweep.start, i)]⟩
  else ⟨sweep.start, st'.depth, st'.quoted, sweep.bounds⟩

/-- The byte in front of a position is there. -/
theorem escaped?_append (bytes more : List Char) :
    escaped? (bytes ++ more) bytes.length = some (decide (bytes.getLast? = some '\\')) := by
  unfold escaped?
  rcases List.eq_nil_or_concat bytes with rfl | ⟨front, last, rfl⟩
  · rfl
  · simp

/-- A byte that is a character. -/
theorem step?_eq_move (sweep : Sweep) (bytes more : List Char) (c : Char) :
    sweep.step? (bytes ++ more) c bytes.length = some (sweep.move (sweep.state bytes.getLast?) c bytes.length) := by
  obtain ⟨start, depth, quoted, bounds⟩ := sweep
  unfold Sweep.step? Sweep.move Sweep.state CutState.cuts CutState.after
  rw [escaped?_append]
  -- one case for each mark, in a quote and outside, and one for all other characters
  split_ifs <;> simp_all

/-- The bytes of other characters change nothing. -/
theorem run?_of_large (bytes : List Char) (sweep : Sweep) {bs : List Char} (h : ∀ b ∈ bs, 0x80 ≤ b.toNat) (i : Nat) :
    sweep.run? bytes bs i = some sweep := by
  induction bs generalizing i with
  | nil => rfl
  | cons b bs ih =>
    obtain ⟨hb, hbs⟩ := List.forall_mem_cons.1 h
    have hstep : sweep.step? bytes b i = some sweep := by
      have hne : b ≠ '"' ∧ b ≠ '(' ∧ b ≠ ')' ∧ b ≠ ',' := by
        refine ⟨?_, ?_, ?_, ?_⟩ <;> exact ne_of_large hb (by decide)
      simp [Sweep.step?, hne]
    have hrun : sweep.run? bytes (b :: bs) i = (sweep.step? bytes b i).bind fun sweep => sweep.run? bytes bs (i + 1) :=
      rfl
    rw [hrun, hstep]
    exact ih hbs (i + 1)

theorem run?_append (bytes : List Char) (sweep : Sweep) (bs ds : List Char) (i : Nat) :
    sweep.run? bytes (bs ++ ds) i = (sweep.run? bytes bs i).bind fun sweep => sweep.run? bytes ds (i + bs.length) := by
  unfold Sweep.run?
  rw [List.zipIdx_append, List.foldlM_append]
  rfl

/-- A character that is no byte does not matter to the search. -/
theorem move_of_large (sweep : Sweep) (last : Option Char) {c : Char} (h : 0x80 ≤ c.toNat) (i : Nat) :
    sweep.move (sweep.state last) c i = sweep := by
  have hne : c ≠ '"' ∧ c ≠ '(' ∧ c ≠ ')' ∧ c ≠ ',' := by
    refine ⟨?_, ?_, ?_, ?_⟩ <;> exact ne_of_large h (by decide)
  simp [Sweep.move, Sweep.state, CutState.cuts, CutState.after, hne]

/-- **The bytes of one character**, behind those of the characters `cs`. -/
theorem sweep_char (sweep : Sweep) (cs : List Char) (c : Char) (more : List Char) :
    sweep.run? (encoded cs ++ more) (encoded [c]) (encoded cs).length =
      some (sweep.move (sweep.state (encoded cs).getLast?) c (encoded cs).length) := by
  rcases encoded_singleton c with hbyte | ⟨hc, -, hbytes⟩
  · rw [hbyte, ← step?_eq_move sweep (encoded cs) more c]
    unfold Sweep.run?
    rw [List.zipIdx_singleton, List.foldlM_cons]
    simp
  · rw [run?_of_large _ _ hbytes, move_of_large _ _ hc]

/-- Behind a character the search is in the state that follows. -/
theorem state_move (sweep : Sweep) (st : CutState) (cs : List Char) (c : Char) (i : Nat) :
    (sweep.move st c i).state (encoded (cs ++ [c])).getLast? = st.after c := by
  have hlast : (encoded (cs ++ [c])).getLast? = some '\\' ↔ c = '\\' := by
    rw [encoded_append]
    rcases encoded_singleton c with hbyte | ⟨hc, hne, hbytes⟩
    · rw [hbyte, List.getLast?_concat, Option.some_inj]
    · rw [List.getLast?_append_of_ne_nil _ hne]
      refine iff_of_false (fun hlast => ?_) (ne_of_large hc (by decide))
      exact ne_of_large (hbytes _ (List.mem_of_getLast? hlast)) (by decide) rfl
  unfold Sweep.state Sweep.move
  simp only [hlast]
  split <;> rfl

/-- The bounds of pieces with a comma between each two, the first of which starts at a position. -/
def spans (start : Nat) : List (List Char) → List (Nat × Nat)
  | [] => []
  | piece :: pieces => (start, start + String.utf8Len piece) :: spans (start + String.utf8Len piece + 1) pieces

/-- Over the bytes of `rest`, behind those of `cs`, the search finds the bounds of the pieces. -/
theorem bounds_run? (rest : List Char) : ∀ (sweep : Sweep) (cs : List Char),
    let pieces := cutPieces (sweep.state (encoded cs).getLast?) rest
    let stop := (encoded cs).length + String.utf8Len pieces.1
    ((sweep.run? (encoded (cs ++ rest)) (encoded rest) (encoded cs).length).map fun sweep =>
      sweep.bounds ++ [(sweep.start, (encoded (cs ++ rest)).length)]) =
        some (sweep.bounds ++ (sweep.start, stop) :: spans (stop + 1) pieces.2) := by
  induction rest with
  | nil =>
    intro sweep cs
    rw [List.append_nil]
    rfl
  | cons c rest ih =>
    intro sweep cs
    have ih := ih (sweep.move (sweep.state (encoded cs).getLast?) c (encoded cs).length) (cs ++ [c])
    have hlength : (encoded (cs ++ [c])).length = (encoded cs).length + c.utf8Size := by
      rw [encoded_append, List.length_append, length_encoded [c], String.utf8Len_cons, String.utf8Len_nil, Nat.zero_add]
    have hlength' : (encoded cs).length + (encoded [c]).length = (encoded (cs ++ [c])).length := by
      rw [encoded_append, List.length_append]
    have hbytes : encoded (cs ++ c :: rest) = encoded (cs ++ [c] ++ rest) := by rw [List.append_cons]
    rw [encoded_cons, run?_append, encoded_append cs, sweep_char, Option.bind_some, hlength', ← encoded_append, hbytes]
    rw [state_move] at ih
    rw [ih, hlength]
    generalize sweep.state (encoded cs).getLast? = st
    simp only [Sweep.move, cutPieces]
    split
    · rename_i hcuts
      obtain rfl := eq_comma_of_cuts hcuts
      rw [List.append_assoc]
      rfl
    · simp only [String.utf8Len_cons, Nat.add_assoc, Nat.add_comm c.utf8Size]

theorem argumentBounds?_eq (s : String) : argumentBounds? s = some (spans 0 (splitArguments s.toList)) := by
  unfold argumentBounds? splitArguments
  dsimp only
  have hempty : (encoded s.toList).isEmpty = s.toList.isEmpty := by
    rw [Bool.eq_iff_iff, List.isEmpty_iff, List.isEmpty_iff, ← List.length_eq_zero_iff, length_encoded,
      String.utf8Len_eq_zero]
  rw [hempty]
  split
  · rfl
  · have hrun := bounds_run? s.toList ⟨0, 0, false, []⟩ []
    dsimp only [List.nil_append] at hrun
    rw [show (encoded []).length = 0 from rfl, Nat.zero_add] at hrun
    rw [hrun, spans, Nat.zero_add]
    rfl

/-! ## The cuts are right -/

/-- Behind the characters in front of them, the bounds of a part are right. -/
theorem isSlice_append (front part back : List Char) :
    IsSlice (String.ofList (front ++ part ++ back)) (String.utf8Len front, String.utf8Len front + String.utf8Len part)
      part := by
  have hvalid : ∀ cs ds : List Char, String.Pos.Raw.IsValid (String.ofList (cs ++ ds)) ⟨String.utf8Len cs⟩ :=
    fun cs ds => String.Pos.Raw.isValid_iff_exists_append.2 ⟨String.ofList cs, String.ofList ds, String.ofList_append,
      String.Pos.Raw.ext (String.utf8ByteSize_ofList cs).symm⟩
  refine ⟨Nat.le_add_right _ _, ?_, ?_, String.extract_of_valid front part back⟩
  · rw [List.append_assoc]
    exact hvalid front (part ++ back)
  · rw [← String.utf8Len_append]
    exact hvalid (front ++ part) back

/-- The bounds of pieces with commas between them are right. -/
theorem isSlice_spans : ∀ (front : List Char) (pieces : List (List Char)),
    List.Forall₂ (IsSlice (String.ofList (front ++ List.intercalate [','] pieces)))
      (spans (String.utf8Len front) pieces) pieces
  | _, [] => .nil
  | front, [piece] => by
    have hslice := isSlice_append front piece []
    rw [List.append_nil] at hslice
    rw [List.intercalate_singleton]
    exact .cons hslice .nil
  | front, piece :: next :: pieces => by
    have hrest := isSlice_spans (front ++ piece ++ [',']) (next :: pieces)
    have hlength : String.utf8Len (front ++ piece ++ [',']) = String.utf8Len front + String.utf8Len piece + 1 := by
      rw [String.utf8Len_append, String.utf8Len_append]
      rfl
    rw [hlength] at hrest
    rw [List.intercalate_cons_cons, ← List.append_assoc, ← List.append_assoc]
    refine .cons ?_ hrest
    rw [List.append_assoc (front ++ piece)]
    exact isSlice_append front piece _

/-- **No cut between arguments is at a wrong place**, and the arguments are what stands between the cuts. -/
theorem argumentBounds?_isSlice (s : String) :
    ∃ bounds, argumentBounds? s = some bounds ∧ List.Forall₂ (IsSlice s) bounds (splitArguments s.toList) := by
  have hslices := isSlice_spans [] (splitArguments s.toList)
  rw [List.nil_append, intercalate_splitArguments, String.ofList_toList] at hslices
  exact ⟨_, argumentBounds?_eq s, hslices⟩

/-- Commas in quotes and parentheses are no cuts, and the quote takes a byte more than it has characters. -/
example : argumentBounds? "\"é,\",MA(A,2),B" = some [(0, 5), (6, 13), (14, 15)] := by decide

/-- The bytes of other characters are no capitals. -/
theorem isNameChar_of_large {c : Char} (h : 0x80 ≤ c.toNat) : isNameChar c = false :=
  Bool.eq_false_iff.2 fun hc => by have := toNat_of_isNameChar hc; omega

/-- **A name is its own bytes**, and ends among the bytes where it ends among the characters. -/
theorem span_encoded (cs : List Char) : (encoded cs).takeWhile isNameChar = cs.takeWhile isNameChar ∧
    (encoded cs).dropWhile isNameChar = encoded (cs.dropWhile isNameChar) := by
  induction cs with
  | nil => exact ⟨rfl, rfl⟩
  | cons c cs ih =>
    rcases encoded_singleton c with hbyte | ⟨hc, hne, hbytes⟩
    · have hcons : encoded (c :: cs) = c :: encoded cs := by rw [encoded_cons, hbyte, List.singleton_append]
      by_cases hc : isNameChar c
      · rw [hcons, List.takeWhile_cons_of_pos hc, List.dropWhile_cons_of_pos hc, List.takeWhile_cons_of_pos hc,
          List.dropWhile_cons_of_pos hc, ih.1]
        exact ⟨rfl, ih.2⟩
      · rw [hcons, List.takeWhile_cons_of_neg hc, List.dropWhile_cons_of_neg hc, List.takeWhile_cons_of_neg hc,
          List.dropWhile_cons_of_neg hc, hcons]
        exact ⟨rfl, rfl⟩
    · obtain ⟨b, bs, hbs⟩ := List.exists_cons_of_ne_nil hne
      have hb : ¬isNameChar b := by simp [isNameChar_of_large (hbytes b (by rw [hbs]; exact List.mem_cons_self))]
      have hc : ¬isNameChar c := by simp [isNameChar_of_large hc]
      have hcons : encoded (c :: cs) = b :: (bs ++ encoded cs) := by rw [encoded_cons, hbs, List.cons_append]
      rw [hcons, List.takeWhile_cons_of_neg hb, List.dropWhile_cons_of_neg hb, List.takeWhile_cons_of_neg hc,
        List.dropWhile_cons_of_neg hc, hcons]
      exact ⟨rfl, rfl⟩

/-- A name has as many bytes as characters. -/
theorem utf8Len_of_name {name : List Char} (h : ∀ c ∈ name, isNameChar c) : String.utf8Len name = name.length := by
  obtain ⟨htake, hdrop⟩ := span_encoded name
  rw [List.takeWhile_eq_self_iff.2 h] at htake
  rw [List.dropWhile_eq_nil_iff.2 h] at hdrop
  have hbytes : encoded name = name ++ encoded [] := by rw [← htake, ← hdrop, List.takeWhile_append_dropWhile, htake]
  rw [← length_encoded, hbytes, encoded, List.flatMap_nil, List.map_nil, List.append_nil]

/-- The first byte of a text is a parenthesis iff the first character is. -/
theorem head?_encoded_eq (cs : List Char) : (encoded cs).head? = some '(' ↔ cs.head? = some '(' := by
  cases cs with
  | nil => exact Iff.rfl
  | cons c cs =>
    rw [encoded_cons]
    rcases encoded_singleton c with hbyte | ⟨hc, hne, hbytes⟩
    · rw [hbyte]
      exact Iff.rfl
    · obtain ⟨b, bs, hbs⟩ := List.exists_cons_of_ne_nil hne
      have hb : 0x80 ≤ b.toNat := hbytes b (by rw [hbs]; exact List.mem_cons_self)
      rw [hbs, List.cons_append, List.head?_cons, List.head?_cons, Option.some_inj, Option.some_inj]
      exact iff_of_false (ne_of_large hb (by decide)) (ne_of_large hc (by decide))

/-- Reading the byte behind the name never fails, and tells what the character there tells. -/
theorem callBounds?_eq {s : String} {name rest : List Char} (hname : s.toList.takeWhile isNameChar = name)
    (hrest : s.toList.dropWhile isNameChar = rest) :
    callBounds? s = some (if name ≠ [] ∧ 2 ≤ String.utf8Len rest ∧ rest.head? = some '(' ∧ s.toList.getLast? = some ')'
      then some ((0, name.length), (name.length + 1, name.length + String.utf8Len rest - 1)) else none) := by
  obtain ⟨htake, hdrop⟩ := span_encoded s.toList
  rw [hname] at htake
  rw [hrest] at hdrop
  have hbytes : encoded s.toList = name ++ encoded rest := by rw [← htake, ← hdrop, List.takeWhile_append_dropWhile]
  have hlength : (encoded s.toList).length = name.length + String.utf8Len rest := by
    rw [hbytes, List.length_append, length_encoded]
  have hhead : (encoded s.toList)[name.length]? = (encoded rest).head? := by
    rw [hbytes, List.getElem?_append_right (Nat.le_refl _), Nat.sub_self, List.head?_eq_getElem?]
  simp only [callBounds?, htake, hlength, hhead]
  split
  · rename_i h
    rw [if_neg]
    rintro ⟨hne, hlen, -⟩
    rcases h with h | h
    · exact hne (List.length_eq_zero_iff.1 h)
    · omega
  · rename_i h
    push Not at h
    have hne : name ≠ [] := fun hnil => h.1 (List.length_eq_zero_iff.2 hnil)
    obtain ⟨b, hb⟩ : ∃ b, (encoded rest).head? = some b := by
      rw [← Option.isSome_iff_exists, List.isSome_head?, ← List.length_pos_iff, length_encoded]
      omega
    have hopen : b = '(' ↔ rest.head? = some '(' := by rw [← head?_encoded_eq, hb, Option.some_inj]
    rw [hb, Option.map_some]
    congr 1
    refine if_congr ?_ rfl rfl
    rw [hopen]
    exact ⟨fun ⟨h1, h2⟩ => ⟨hne, by omega, h1, h2⟩, fun ⟨_, _, h1, h2⟩ => ⟨h1, h2⟩⟩

/-- A name with an open parenthesis behind it, more text behind that, and a closed one at the end looks like a call. -/
theorem exists_splitCall {cs : List Char} (hname : cs.takeWhile isNameChar ≠ [])
    (hlength : 2 ≤ String.utf8Len (cs.dropWhile isNameChar)) (hopen : (cs.dropWhile isNameChar).head? = some '(')
    (hclose : cs.getLast? = some ')') : ∃ call, splitCall cs = some call := by
  have hcs : cs = cs.takeWhile isNameChar ++ cs.dropWhile isNameChar := List.takeWhile_append_dropWhile.symm
  have hchars : ∀ c ∈ cs.takeWhile isNameChar, isNameChar c := List.all_eq_true.1 List.all_takeWhile
  generalize cs.takeWhile isNameChar = name at *
  generalize cs.dropWhile isNameChar = rest at *
  obtain ⟨tail, rfl⟩ := List.head?_eq_some_iff.1 hopen
  have htail : tail ≠ [] := by
    rintro rfl
    exact absurd hlength (by decide)
  obtain ⟨inner, rfl⟩ : ∃ inner, tail = inner ++ [')'] := by
    rw [← List.getLast?_eq_some_iff, ← hclose, hcs, List.append_cons, List.getLast?_append_of_ne_nil _ htail]
  refine ⟨(name, inner), splitCall_eq_some_iff.2 ⟨hname, hchars, ?_⟩⟩
  rw [hcs, List.append_assoc, List.cons_append]

/-- Behind a name in front of parentheses, its bounds and those of the text between them are right. -/
theorem isSlice_call {name inner : List Char} (hname : ∀ c ∈ name, isNameChar c) :
    IsSlice (String.ofList (name ++ '(' :: inner ++ [')'])) (0, name.length) name ∧
      IsSlice (String.ofList (name ++ '(' :: inner ++ [')']))
        (name.length + 1, name.length + 1 + String.utf8Len inner) inner := by
  constructor
  · have hslice := isSlice_append [] name ('(' :: inner ++ [')'])
    rw [List.nil_append, ← List.append_assoc, utf8Len_of_name hname, String.utf8Len_nil, Nat.zero_add] at hslice
    exact hslice
  · have hslice := isSlice_append (name ++ ['(']) inner [')']
    have hlength : String.utf8Len (name ++ ['(']) = name.length + 1 := by
      rw [String.utf8Len_append, utf8Len_of_name hname]
      rfl
    rw [hlength, ← List.append_cons] at hslice
    exact hslice

/-- **No cut of a call is at a wrong place**, and its name and the text between its parentheses are what stands between
the cuts. -/
theorem callBounds?_isSlice (s : String) : ∃ bounds, callBounds? s = some bounds ∧
    Option.Rel (fun bounds call => IsSlice s bounds.1 call.1 ∧ IsSlice s bounds.2 call.2) bounds
      (splitCall s.toList) := by
  refine ⟨_, callBounds?_eq rfl rfl, ?_⟩
  cases hcall : splitCall s.toList with
  | none =>
    rw [if_neg]
    · exact .none
    · rintro ⟨hne, hlength, hopen, hclose⟩
      obtain ⟨call, hsome⟩ := exists_splitCall hne hlength hopen hclose
      rw [hcall] at hsome
      cases hsome
  | some call =>
    obtain ⟨name, inner⟩ := call
    obtain ⟨hne, hname, hs⟩ := splitCall_eq_some_iff.1 hcall
    have htake : s.toList.takeWhile isNameChar = name := by
      rw [hs, List.append_assoc, List.takeWhile_append_of_pos hname, List.cons_append,
        List.takeWhile_cons_of_neg (by decide), List.append_nil]
    have hdrop : s.toList.dropWhile isNameChar = '(' :: inner ++ [')'] := by
      rw [hs, List.append_assoc, List.dropWhile_append_of_pos hname, List.cons_append,
        List.dropWhile_cons_of_neg (by decide)]
    have hlength : String.utf8Len ('(' :: inner ++ [')']) = 1 + String.utf8Len inner + 1 := by
      rw [String.utf8Len_append, String.utf8Len_cons]
      change String.utf8Len inner + 1 + 1 = _
      omega
    have hs' : s = String.ofList (name ++ '(' :: inner ++ [')']) := by rw [← hs, String.ofList_toList]
    rw [htake, hdrop, hlength, if_pos ⟨hne, by omega, rfl, by rw [hs, List.getLast?_concat]⟩, hs']
    have hend : name.length + (1 + String.utf8Len inner + 1) - 1 = name.length + 1 + String.utf8Len inner := by omega
    rw [hend]
    exact .some (isSlice_call hname)

/-! ## The way back -/

theorem isPlain_of_isBlank {c : Char} (h : Text.isBlank c) : IsPlain c := by
  refine ⟨?_, ?_, ?_, ?_, ?_⟩ <;> rintro rfl <;> exact absurd h (by decide)

/-- Commas between parentheses are passed over, and so are arguments that are. -/
theorem passes_intercalate {depth : Int} (hd : depth ≠ 0) : ∀ {pieces : List (List Char)},
    (∀ piece ∈ pieces, Passes (.at depth) piece (.at depth)) →
    Passes (.at depth) (List.intercalate [','] pieces) (.at depth)
  | [], _ => .nil _
  | [piece], h => by
    rw [List.intercalate_singleton]
    exact h piece List.mem_cons_self
  | piece :: next :: pieces, h => by
    rw [List.intercalate_cons_cons, List.append_assoc]
    refine (h piece List.mem_cons_self).append ((passes_comma hd).append ?_)
    exact passes_intercalate hd fun p hp => h p (List.mem_cons_of_mem _ hp)

/-- An identifier or a number is plain, also with blanks around it. -/
theorem isPlain_of_parseLeaf {cs : List Char} {e : Expr Float} (h : parseLeaf cs = .ok e) : ∀ c ∈ cs, IsPlain c := by
  unfold parseLeaf at h
  split at h
  · rename_i hid
    cases cs with
    | nil => cases hid
    | cons c cs =>
      simp only [isIdentifier, Bool.and_eq_true, List.all_eq_true, Bool.or_eq_true] at hid
      exact fun d hd => isPlain_of_isWordChar (isWordChar_of_identifier (isNameChar_or_isDigit hid.1 hid.2) d hd)
  · split at h
    · rename_i x hx
      simp only [Decimal.numeric?, Option.filter_eq_some_iff, Option.map_eq_some_iff] at hx
      obtain ⟨⟨l, hl, -⟩, -⟩ := hx
      have hspells := Decimal.literal?_eq_some_iff.1 hl
      intro c hc
      by_cases hblank : Text.isBlank c
      · exact isPlain_of_isBlank hblank
      · exact isPlain_of_isWordChar (isWordChar_of_spells hspells c (Text.mem_trim hc (by simpa using hblank)))
    · cases h

/-- **The search for commas passes over a text that is read**, at every depth from zero on, also with blanks in it. -/
theorem passes_of_parseNode {policy : Policy} {cs : List Char} : ∀ {depth : Nat} {e : Expr Float},
    parseNode policy depth cs = .ok e → ∀ {d : Int}, 0 ≤ d → Passes (.at d) cs (.at d) := by
  induction cs using text_induction with
  | leaf cs hcall =>
    intro depth e h d hd
    rw [parseNode_of_leaf hcall] at h
    exact passes_of_isPlain d (isPlain_of_parseLeaf h)
  | call cs name inner hcall ih =>
    intro depth e h d hd
    obtain ⟨args, hargs, rfl⟩ := exists_of_parseNode_call hcall h
    obtain ⟨-, hname, rfl⟩ := splitCall_eq_some_iff.1 hcall
    have hinner : Passes (.at (d + 1)) inner (.at (d + 1)) := by
      rw [← intercalate_splitArguments inner]
      refine passes_intercalate (by omega) fun piece hpiece => ?_
      obtain ⟨e, he⟩ := exists_mapM_eq_ok_iff.1 ⟨args, hargs⟩ piece hpiece
      exact ih piece hpiece he (by omega)
    rw [List.append_assoc]
    exact (passes_of_isWordChar d fun c hc => isWordChar_of_isNameChar (hname c hc)).append (passes_parens hinner)

/-- The empty text is not read. -/
theorem ne_nil_of_parseNode {policy : Policy} {depth : Nat} {cs : List Char} {e : Expr Float}
    (h : parseNode policy depth cs = .ok e) : cs ≠ [] := by
  rintro rfl
  rw [parseNode_of_leaf rfl] at h
  cases h

/-- **Texts that are read are the arguments that they are put together from.** -/
theorem splitArguments_intercalate : ∀ {pieces : List (List Char)}, pieces ≠ [] →
    (∀ piece ∈ pieces, ∃ policy depth e, parseNode policy depth piece = .ok e) →
    splitArguments (List.intercalate [','] pieces) = pieces
  | [piece], _, h => by
    obtain ⟨policy, depth, e, he⟩ := h piece List.mem_cons_self
    rw [List.intercalate_singleton]
    exact splitArguments_of_passes (ne_nil_of_parseNode he) (passes_of_parseNode he (Int.le_refl 0))
  | piece :: next :: pieces, _, h => by
    obtain ⟨policy, depth, e, he⟩ := h piece List.mem_cons_self
    have hrest : splitArguments (List.intercalate [','] (next :: pieces)) = next :: pieces :=
      splitArguments_intercalate (List.cons_ne_nil _ _) fun p hp => h p (List.mem_cons_of_mem _ hp)
    have hne : List.intercalate [','] (next :: pieces) ≠ [] := by
      intro hnil
      rw [hnil] at hrest
      cases hrest
    rw [List.intercalate_cons_cons, List.append_assoc]
    exact (splitArguments_append (passes_of_parseNode he (Int.le_refl 0)) hne).trans (congrArg _ hrest)

/-- **Splitting loses nothing and cuts only where it may.** For every text, reading bytes never fails, and each cut of a
call and between arguments is a position in the text at which a character starts or the text ends; what stands between
the cuts are the name of the call, the text between its parentheses, and the arguments. The arguments with commas
between them are the text again; and texts each of which is read, with commas between them, are split into just these
texts. -/
theorem splitting_lossless :
    (∀ s : String,
      (∃ bounds, callBounds? s = some bounds ∧
        Option.Rel (fun bounds call => IsSlice s bounds.1 call.1 ∧ IsSlice s bounds.2 call.2) bounds
          (splitCall s.toList)) ∧
      ∃ bounds, argumentBounds? s = some bounds ∧ List.Forall₂ (IsSlice s) bounds (splitArguments s.toList)) ∧
    (∀ params : List Char, params ≠ [] →
      splitArguments params ≠ [] ∧ List.intercalate [','] (splitArguments params) = params) ∧
    ∀ pieces : List (List Char), pieces ≠ [] →
      (∀ piece ∈ pieces, ∃ policy depth e, parseNode policy depth piece = .ok e) →
      splitArguments (List.intercalate [','] pieces) = pieces := by
  refine ⟨fun s => ⟨callBounds?_isSlice s, argumentBounds?_isSlice s⟩, fun params hne => ?_, fun pieces hne hread => ?_⟩
  · refine ⟨?_, intercalate_splitArguments params⟩
    rw [splitArguments_of_ne_nil hne]
    exact List.cons_ne_nil _ _
  · exact splitArguments_intercalate hne hread

end SeriesFormula.Formula
