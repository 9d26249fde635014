import Mathlib.Data.List.Lex
import Mathlib.Tactic.SplitIfs
import SeriesFormula.Text.Case

/-!
# The bytes of texts

- texts are ordered by their characters, and so are the bytes that they are encoded in (`bytes_lt_bytes`): the encoding
  of a character is below that of a greater one, whatever follows (`encode_append_lt`);
- a character is its own byte, or is encoded by bytes above all of those (`encode_cases`).
-/

namespace SeriesFormula.Text

/-- The bytes that a text is encoded in. -/
def bytes (s : String) : List UInt8 := s.toList.flatMap String.utf8EncodeChar

/-- A character is its own byte, or is encoded by bytes above those. -/
theorem encode_cases (c : Char) : (String.utf8EncodeChar c).map Char.ofUInt8 = [c] ∨
    0x80 ≤ c.toNat ∧ ∀ b ∈ String.utf8EncodeChar c, 0x80 ≤ b.toNat := by
  unfold String.utf8EncodeChar
  dsimp only
  split_ifs with hone htwo hthree
  · refine .inl (congrArg (fun d => [d]) (Char.ext (UInt32.toNat_inj.1 ?_)))
    change (UInt8.ofNat c.val.toNat).toNat = c.val.toNat
    rw [UInt8.toNat_ofNat']
    omega
  all_goals
    refine .inr ⟨?_, ?_⟩
    · change 0x80 ≤ c.val.toNat
      omega
    · simp only [List.forall_mem_cons, UInt8.toNat_ofNat']
      refine ⟨?_, ?_⟩ <;> grind

/-! ## The order of bytes -/

variable {m n : Nat}

theorem byte_lt_iff (hm : m < 256) (hn : n < 256) : UInt8.ofNat m < UInt8.ofNat n ↔ m < n := by
  rw [UInt8.lt_iff_toNat_lt, UInt8.toNat_ofNat', UInt8.toNat_ofNat', Nat.mod_eq_of_lt hm, Nat.mod_eq_of_lt hn]

theorem byte_eq_iff (hm : m < 256) (hn : n < 256) : UInt8.ofNat m = UInt8.ofNat n ↔ m = n := by
  rw [← UInt8.toNat_inj, UInt8.toNat_ofNat', UInt8.toNat_ofNat', Nat.mod_eq_of_lt hm, Nat.mod_eq_of_lt hn]

/-- The six bits of each byte of an encoding make up the number of its character. -/
theorem eq_digits (hn : n < 0x200000) :
    n = n % 64 + 64 * (n / 64 % 64) + 4096 * (n / 4096 % 64) + 262144 * (n / 262144 % 8) := by omega

/-- The encoding of a character is below that of a greater one. -/
theorem encode_append_lt {c d : Char} (h : c < d) (xs ys : List UInt8) :
    String.utf8EncodeChar c ++ xs < String.utf8EncodeChar d ++ ys := by
  have hcd : c.val.toNat < d.val.toNat := h
  have hd : d.val.toNat < 0x110000 := by
    have := d.valid
    grind
  have hcdigits := eq_digits (n := c.val.toNat) (by omega)
  have hddigits := eq_digits (n := d.val.toNat) (by omega)
  unfold String.utf8EncodeChar
  generalize c.val.toNat = v at *
  generalize d.val.toNat = w at *
  dsimp only
  -- one case for each two lengths: the first bytes differ if the lengths do
  split_ifs <;>
    simp (disch := omega) only [List.cons_append, List.nil_append, List.cons_lt_cons_iff, byte_lt_iff, byte_eq_iff] <;>
    omega

theorem flatMap_encode_lt {cs ds : List Char} (h : List.Lex (· < ·) cs ds) :
    cs.flatMap String.utf8EncodeChar < ds.flatMap String.utf8EncodeChar := by
  induction h with
  | @nil d ds =>
    rw [List.flatMap_nil, List.flatMap_cons]
    cases henc : String.utf8EncodeChar d with
    | nil => exact absurd henc String.utf8EncodeChar_ne_nil
    | cons b bs => exact .nil
  | rel hcd =>
    rw [List.flatMap_cons, List.flatMap_cons]
    exact encode_append_lt hcd _ _
  | cons _ ih =>
    rw [List.flatMap_cons, List.flatMap_cons]
    exact List.Lex.append_left _ ih _

/-- **Texts are ordered as their bytes.** -/
theorem bytes_lt_bytes {s t : String} (h : s < t) : bytes s < bytes t := flatMap_encode_lt h

end SeriesFormula.Text
