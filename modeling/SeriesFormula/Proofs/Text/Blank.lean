import Mathlib.Data.List.DropRight
import SeriesFormula.Text.Blank

/-!
# Texts without blanks

- the printable characters of ASCII are no blanks (`isBlank_of_printable`);
- trimming and squeezing leave a text without blanks as it is (`trim_of_solid`, `squeeze_of_solid`), and a squeezed
  text has none (`solid_squeeze`);
- trimming takes the blanks in front and no more (`exists_vacant`, `trimStart_append`), and nothing but blanks
  (`mem_trim`);
- there is nothing left to trim in a trimmed text (`trim_trim`);
- squeezing keeps what is said of single characters and of counts (`mem_squeeze`, `count_squeeze`).
-/

namespace SeriesFormula.Text

/-- No character of the text is a blank. -/
def Solid (cs : List Char) : Prop := ∀ c ∈ cs, isBlank c = false

instance : DecidablePred Solid := fun cs => List.decidableBAll (fun c => isBlank c = false) cs

/-- The characters `!` to `~` are no blanks. -/
theorem isBlank_of_printable {c : Char} (hl : 0x21 ≤ c.toNat) (hu : c.toNat ≤ 0x7E) : isBlank c = false := by
  simp only [isBlank, Bool.or_eq_false_iff, Bool.and_eq_false_iff, decide_eq_false_iff_not, beq_eq_false_iff_ne]
  omega

theorem trimStart_of_solid {cs : List Char} (h : Solid cs) : trimStart cs = cs := by
  cases cs with
  | nil => rfl
  | cons c cs => simp [trimStart, h c List.mem_cons_self]

/-- There is nothing to trim in a text without blanks. -/
theorem trim_of_solid {cs : List Char} (h : Solid cs) : trim cs = cs := by
  have hr : Solid cs.reverse := fun c hc => h c (List.mem_reverse.1 hc)
  have := trimStart_of_solid hr
  unfold trimStart at this
  rw [trim, trimStart_of_solid h, trimEnd, this, List.reverse_reverse]

/-- All characters of the text are blanks. -/
def Vacant (cs : List Char) : Prop := ∀ c ∈ cs, isBlank c

instance : DecidablePred Vacant := fun cs => List.decidableBAll (fun c => isBlank c = true) cs

/-- Only the empty text has blanks only and has none. -/
theorem eq_nil_of_vacant {cs : List Char} (hvacant : Vacant cs) (hsolid : Solid cs) : cs = [] := by
  cases cs with
  | nil => rfl
  | cons c cs => exact absurd (hvacant c List.mem_cons_self) (by simp [hsolid c List.mem_cons_self])

/-- What is trimmed in front are blanks. -/
theorem exists_vacant (cs : List Char) : ∃ gap, Vacant gap ∧ cs = gap ++ trimStart cs :=
  ⟨cs.takeWhile isBlank, List.all_eq_true.1 List.all_takeWhile, List.takeWhile_append_dropWhile.symm⟩

/-- Blanks are trimmed in front of what starts with none. -/
theorem trimStart_append {gap cs : List Char} {c : Char} (hgap : Vacant gap) (hc : isBlank c = false) :
    trimStart (gap ++ c :: cs) = c :: cs := by
  rw [trimStart, List.dropWhile_append_of_pos hgap, List.dropWhile_cons_of_neg (by simp [hc])]

/-- The first character behind the blanks in front is none. -/
theorem isBlank_of_trimStart {c : Char} {cs ds : List Char} (h : trimStart cs = c :: ds) : isBlank c = false := by
  have := List.head?_dropWhile_not isBlank cs
  unfold trimStart at h
  rwa [h] at this

theorem mem_trimStart {c : Char} {cs : List Char} (hc : c ∈ cs) (h : isBlank c = false) : c ∈ trimStart cs := by
  obtain ⟨gap, hgap, hcs⟩ := exists_vacant cs
  rw [hcs] at hc
  refine (List.mem_append.1 hc).resolve_left fun hc => ?_
  exact absurd (hgap c hc) (by simp [h])

/-- Only blanks are trimmed. -/
theorem mem_trim {c : Char} {cs : List Char} (hc : c ∈ cs) (h : isBlank c = false) : c ∈ trim cs := by
  have hstart := List.mem_reverse.2 (mem_trimStart hc h)
  exact List.mem_reverse.2 (mem_trimStart hstart h)

/-- There is nothing to trim in a trimmed text. -/
theorem trim_trim (cs : List Char) : trim (trim cs) = trim cs := by
  have hstart : trimStart (trim cs) = trim cs := by
    -- cutting the end leaves the first character
    obtain ⟨rest, hrest⟩ : trim cs <+: trimStart cs := List.rdropWhile_prefix isBlank (trimStart cs)
    cases h : trim cs with
    | nil => rfl
    | cons c ds =>
      rw [h] at hrest
      simp [trimStart, isBlank_of_trimStart hrest.symm]
  rw [trim, hstart]
  exact List.rdropWhile_idempotent isBlank (trimStart cs)

@[simp]
theorem trimmed_trimmed (s : String) : trimmed (trimmed s) = trimmed s := by
  simp [trimmed, trim_trim]

/-- There is nothing to squeeze in a text without blanks. -/
theorem squeeze_of_solid {cs : List Char} (h : Solid cs) : squeeze cs = cs :=
  List.filter_eq_self.2 fun c hc => by simp [h c hc]

theorem solid_squeeze (cs : List Char) : Solid (squeeze cs) := fun c hc => by
  simpa using (List.mem_filter.1 hc).2

theorem mem_squeeze {c : Char} {cs : List Char} (h : isBlank c = false) : c ∈ squeeze cs ↔ c ∈ cs := by
  simp [squeeze, List.mem_filter, h]

theorem count_squeeze {c : Char} (cs : List Char) (h : isBlank c = false) : (squeeze cs).count c = cs.count c :=
  List.count_filter (by simp [h])

end SeriesFormula.Text
