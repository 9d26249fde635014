import Std.Data.TreeMap.Lemmas
import SeriesFormula.Formula.Context
import SeriesFormula.Proofs.Result
import SeriesFormula.Proofs.Text.Case

/-!
# Looking series up

- a series that is added is found under its identifier in small letters, and no other identifier is affected
  (`Context.get?_insert`);
- of several additions the last one under an identifier counts (`Context.get?_foldlM`), be it of single series
  (`Context.get?_ofList`) or of all series of another context (`Context.get?_foldl_toList`);
- so the identifiers of a context stay in small letters (`Context.IsLower`).
-/

namespace SeriesFormula.Context

variable {α : Type} {context found : Context α}

/-! ## One addition -/

/-- A series that is added is found under its identifier in small letters. -/
theorem get?_insert (context : Context α) (name : String) (s : Series α) (id : String) :
    (context.insert name s).get? id = if Text.lower name = id then some s else context.get? id := by
  rw [get?, insert, Std.TreeMap.getElem?_insert, get?]
  simp only [Std.compare_eq_iff_eq]

theorem get?_empty (id : String) : (empty : Context α).get? id = none := Std.TreeMap.getElem?_emptyc

theorem mem_ids_iff {id : String} : id ∈ context.ids ↔ ∃ s, context.get? id = some s := by
  rw [ids, Std.TreeMap.mem_keys, Std.TreeMap.mem_iff_isSome_getElem?, Option.isSome_iff_exists]
  rfl

theorem mem_toList_iff {id : String} {s : Series α} : (id, s) ∈ context.toList ↔ context.get? id = some s :=
  Std.TreeMap.mem_toList_iff_getElem?_eq_some

/-! ## Several additions -/

/-- **The last addition counts.** If each addition supplies a series or leaves the one there is, then of several the last
one that supplies a series does. -/
theorem get?_foldlM {ε β : Type} {add : Context α → β → Except ε (Context α)} (supply : β → Option (Series α))
    {id : String}
    (h : ∀ context x next, add context x = .ok next → next.get? id = (supply x).or (context.get? id)) {xs : List β}
    {context last : Context α} (hlast : xs.foldlM add context = .ok last) :
    last.get? id = (xs.reverse.findSome? supply).or (context.get? id) := by
  induction xs generalizing context with
  | nil =>
    cases hlast
    rfl
  | cons x xs ih =>
    rw [List.foldlM_cons, bind_eq_ok_iff] at hlast
    obtain ⟨next, hnext, hlast⟩ := hlast
    rw [ih hlast, h context x next hnext, List.reverse_cons, List.findSome?_append, Option.or_assoc]
    cases hx : supply x <;> simp [hx]

theorem get?_foldl {β : Type} {add : Context α → β → Context α} (supply : β → Option (Series α)) {id : String}
    (h : ∀ context x, (add context x).get? id = (supply x).or (context.get? id)) (xs : List β) (context : Context α) :
    (xs.foldl add context).get? id = (xs.reverse.findSome? supply).or (context.get? id) := by
  have hstep : ∀ context x next, (.ok (add context x) : Except Empty (Context α)) = .ok next →
      next.get? id = (supply x).or (context.get? id) := by
    rintro context x next ⟨⟩
    exact h context x
  exact get?_foldlM supply hstep (List.foldlM_pure ..)

/-- The series that an entry supplies under an identifier. -/
def supplied? (id : String) (entry : String × Series α) : Option (Series α) :=
  if Text.lower entry.1 = id then some entry.2 else none

theorem get?_insert_or (context : Context α) (name : String) (s : Series α) (id : String) :
    (context.insert name s).get? id = (supplied? id (name, s)).or (context.get? id) := by
  rw [get?_insert, supplied?]
  split <;> rfl

/-- Of the series in a list, the last one under an identifier is found. -/
theorem get?_ofList (entries : List (String × Series α)) (id : String) :
    (ofList entries).get? id = entries.reverse.findSome? (supplied? id) := by
  have hfold := get?_foldl (supplied? id) (fun context (entry : String × Series α) =>
    get?_insert_or context entry.1 entry.2 id) entries empty
  rw [get?_empty, Option.or_none] at hfold
  exact hfold

/-! ## Identifiers in small letters -/

/-- All identifiers are in small letters. -/
def IsLower (context : Context α) : Prop := ∀ id s, context.get? id = some s → Text.lower id = id

theorem isLower_ofList (entries : List (String × Series α)) : (ofList entries).IsLower := by
  intro id s hs
  rw [get?_ofList] at hs
  obtain ⟨⟨name, t⟩, -, hsupplied⟩ := List.exists_of_findSome?_eq_some hs
  rw [supplied?] at hsupplied
  split at hsupplied
  · rename_i hname
    rw [← hname, Text.lower_lower]
  · cases hsupplied

/-- All series of a context, changed in some way, replace those of another one under their identifiers. -/
theorem get?_foldl_toList (h : found.IsLower) (f : Series α → Series α) (context : Context α) (id : String) :
    (found.toList.foldl (fun context entry => context.insert entry.1 (f entry.2)) context).get? id =
      ((found.get? id).map f).or (context.get? id) := by
  rw [get?_foldl (fun entry => supplied? id (entry.1, f entry.2))
    fun context entry => get?_insert_or context entry.1 (f entry.2) id]
  congr 1
  cases hfind : found.toList.reverse.findSome? fun entry => supplied? id (entry.1, f entry.2) with
  | none =>
    -- no entry of the context is under the identifier
    rw [List.findSome?_eq_none_iff] at hfind
    cases hget : found.get? id with
    | none => rfl
    | some s =>
      have hentry := hfind (id, s) (List.mem_reverse.2 (mem_toList_iff.2 hget))
      rw [supplied?, if_pos (h id s hget)] at hentry
      cases hentry
  | some t =>
    obtain ⟨⟨name, s⟩, hmem, hsupplied⟩ := List.exists_of_findSome?_eq_some hfind
    have hget := mem_toList_iff.1 (List.mem_reverse.1 hmem)
    rw [supplied?, h name s hget] at hsupplied
    split at hsupplied
    · rename_i hname
      cases hname
      rw [hget]
      exact hsupplied.symm
    · cases hsupplied

end SeriesFormula.Context
