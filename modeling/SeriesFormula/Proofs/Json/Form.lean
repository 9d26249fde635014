import SeriesFormula.Json.Reader

/-!
# Errors of form

A text is refused for its form and shape, or for the data in it. `IsFormal r` says that the result `r` is no error in the
data, and `Reader.IsFormal reader` that no result of the reader is: only what checks values finds such errors. There is
one lemma for each way to build a reader.
-/

namespace SeriesFormula.Json

variable {β γ σ : Type}

/-- The result is no error in the data. -/
def IsFormal (r : Except ReadError β) : Prop := ∀ error, r ≠ .error (.data error)

theorem isFormal_ok (x : β) : IsFormal (.ok x) := fun _ h => by cases h

theorem isFormal_document (category : Category) : IsFormal (.error (.document category) : Except ReadError β) :=
  fun _ h => by cases h

theorem IsFormal.bind {r : Except ReadError β} {f : β → Except ReadError γ} (h : IsFormal r)
    (hf : ∀ x, IsFormal (f x)) : IsFormal (r >>= f) := by
  cases r with
  | error error => exact fun e heq => h e (by cases heq; rfl)
  | ok x => exact hf x

theorem IsFormal.map {r : Except ReadError β} (h : IsFormal r) (f : β → γ) : IsFormal (f <$> r) := by
  cases r with
  | error error => exact fun e heq => h e (by cases heq; rfl)
  | ok x => exact isFormal_ok (f x)

theorem IsFormal.ite {p : Prop} [Decidable p] {r s : Except ReadError β} (hr : IsFormal r) (hs : IsFormal s) :
    IsFormal (if p then r else s) := by
  split
  · exact hr
  · exact hs

theorem IsFormal.foldlM {f : σ → γ → Except ReadError σ} (h : ∀ s x, IsFormal (f s x)) (xs : List γ) (s : σ) :
    IsFormal (xs.foldlM f s) := by
  induction xs generalizing s with
  | nil => exact isFormal_ok s
  | cons x xs ih =>
    rw [List.foldlM_cons]
    exact (h s x).bind ih

/-! ## Parts of documents -/

theorem isFormal_mismatch (document : Document) : IsFormal (.error document.mismatch : Except ReadError β) := by
  unfold Document.mismatch
  split <;> exact isFormal_document _

theorem isFormal_inside (mode : Mode) : IsFormal mode.inside := by
  unfold Mode.inside
  split
  · exact .ite (isFormal_ok _) (isFormal_document _)
  · exact isFormal_ok _

theorem isFormal_passCut (cut : Option Fault) : IsFormal (passCut cut) := by
  cases cut with
  | none => exact isFormal_ok _
  | some fault => exact isFormal_document _

theorem isFormal_passEnding (ending : Ending) : IsFormal (passEnding ending) := by
  cases ending with
  | closed => exact isFormal_ok _
  | cut fault => exact isFormal_document _
  | unnamed fault passed => exact isFormal_document _

theorem isFormal_skipEnding (ending : Ending) : IsFormal (skipEnding ending) := by
  cases ending with
  | closed => exact isFormal_ok _
  | cut fault => exact isFormal_document _
  | unnamed fault passed => exact isFormal_document _

theorem isFormal_memberName (name : Option (List Char)) : IsFormal (memberName name) := by
  cases name with
  | none => exact isFormal_document _
  | some cs => exact isFormal_ok _

mutual

/-- Passing over a value finds no error in the data. -/
theorem isFormal_skip : ∀ document : Document, IsFormal document.skip
  | .nothing | .broken _ => isFormal_document _
  | .null | .bool _ | .number .. => isFormal_ok _
  | .string _ cut => isFormal_passCut cut
  | .array items cut => (isFormal_skipItems items).bind fun _ => isFormal_passCut cut
  | .object members ending => (isFormal_skipMembers members).bind fun _ => isFormal_skipEnding ending

theorem isFormal_skipItems : ∀ items : List Document, IsFormal (skipItems items)
  | [] => isFormal_ok _
  | d :: ds => (isFormal_skip d).bind fun _ => isFormal_skipItems ds

theorem isFormal_skipMembers : ∀ members : List (Option (List Char) × Document), IsFormal (skipMembers members)
  | [] => isFormal_ok _
  | (_, d) :: ds => (isFormal_skip d).bind fun _ => isFormal_skipMembers ds

end

/-! ## Readers -/

namespace Reader

/-- No result of the reader is an error in the data. -/
def IsFormal (reader : Reader β) : Prop := ∀ mode document, Json.IsFormal (reader mode document)

theorem isFormal_text : Reader.text.IsFormal := by
  intro mode document
  unfold Reader.text
  split
  · exact isFormal_ok _
  · exact isFormal_mismatch _

theorem IsFormal.optional {reader : Reader β} (h : reader.IsFormal) : reader.optional.IsFormal := by
  intro mode document
  unfold Reader.optional
  split
  · exact isFormal_ok _
  · exact (h _ _).map _

theorem IsFormal.check {reader : Reader β} {f : β → Except ReadError γ} (h : reader.IsFormal)
    (hf : ∀ x, Json.IsFormal (f x)) : (reader.check f).IsFormal := fun mode document => (h mode document).bind hf

theorem isFormal_required (value : Option β) : Json.IsFormal (required value) := by
  cases value with
  | none => exact isFormal_document _
  | some x => exact isFormal_ok x

/-- Reading the field finds no error in the data. -/
def Field.IsFormal (field : Field σ) : Prop := ∀ mode draft document, Json.IsFormal (field.read mode draft document)

theorem IsFormal.slot {reader : Reader β} (h : reader.IsFormal) (name : String) (get : σ → Option β)
    (set : σ → β → σ) (mayEnd : Bool) : (Field.slot name get set reader mayEnd).IsFormal :=
  fun mode _ document => .ite (isFormal_document _) ((h mode document).map _)

theorem isFormal_passSurplus (mode : Mode) (items : List Document) (cut : Option Fault) :
    Json.IsFormal (passSurplus mode items cut) := .ite (isFormal_passCut cut) (isFormal_document _)

section Records

variable {fields : List (Field σ)} (h : ∀ field ∈ fields, field.IsFormal)
include h

theorem isFormal_readMember (mode : Mode) (draft : σ) (member : Option (List Char) × Document) :
    Json.IsFormal (readMember fields mode draft member) := by
  unfold readMember
  refine (isFormal_memberName _).bind fun name => ?_
  split
  · rename_i field hfield
    exact h field (List.mem_of_find?_eq_some hfield) _ _ _
  · split
    · exact isFormal_ok _
    · exact (isFormal_skip _).bind fun _ => isFormal_ok _

theorem isFormal_readItems (mode : Mode) (cut : Option Fault) (draft : σ) (items : List Document) :
    Json.IsFormal (readItems mode cut fields draft items) := by
  induction fields generalizing draft items with
  | nil => exact (isFormal_passSurplus mode items cut).bind fun _ => isFormal_ok draft
  | cons field fields ih =>
    obtain ⟨hfield, hfields⟩ := List.forall_mem_cons.1 h
    cases items with
    | nil => exact (isFormal_passCut cut).bind fun _ => .ite (ih hfields _ _) (isFormal_document _)
    | cons item items => exact (hfield _ _ _).bind fun draft => ih hfields draft items

theorem isFormal_record (start : σ) : (record fields start).IsFormal := by
  intro mode document
  unfold record
  split
  · refine (isFormal_inside mode).bind fun inner => ?_
    exact (IsFormal.foldlM (isFormal_readMember h inner) _ start).bind fun draft =>
      (isFormal_passEnding _).bind fun _ => isFormal_ok draft
  · exact (isFormal_inside mode).bind fun inner => isFormal_readItems h inner _ start _
  · exact isFormal_mismatch _

end Records

end Reader

end SeriesFormula.Json
