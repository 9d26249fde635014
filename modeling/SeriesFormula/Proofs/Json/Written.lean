import SeriesFormula.Proofs.Json.Document
import SeriesFormula.Proofs.Result

/-!
# Readers of written values

`reader.Gives v n r` says that a reader comes to the result `r` for the written value `v` wherever `n` more brackets may
be opened, and `reader.Reads v n x` that it takes the value `x` out of it. There is one lemma for each way to build a
reader, and `Gives.run_indented` and `Reads.run` take them to the text. What a tagged record keeps for its second
reading is said by `tagged_object`, and what comes of that reading by `tagged_object_bind`.
-/

namespace SeriesFormula.Json

/-- So many brackets may be opened: they are left, or brackets are not counted. -/
def Mode.Allows (mode : Mode) (n : ℕ) : Prop := mode.kept ∨ n ≤ mode.levels

theorem Mode.Allows.inside {mode : Mode} {n : ℕ} (h : mode.Allows (n + 1)) :
    ∃ inner, mode.inside = .ok inner ∧ inner.Allows n ∧ inner.kept = mode.kept := by
  obtain ⟨levels, kept⟩ := mode
  cases levels with
  | zero =>
    obtain rfl : kept = true := h.resolve_right (Nat.not_succ_le_zero n)
    exact ⟨⟨0, true⟩, rfl, .inl rfl, rfl⟩
  | succ levels => exact ⟨⟨levels, kept⟩, rfl, h.imp_right Nat.le_of_succ_le_succ, rfl⟩

theorem memberName_toList (key : String) : memberName (some key.toList) = .ok key := by
  rw [memberName, String.ofList_toList]

namespace Reader

variable {β : Type} {reader : Reader β} {n : ℕ}

/-- The reader takes `x` out of the value wherever `n` more brackets may be opened. -/
def Reads (reader : Reader β) (v : Json) (n : ℕ) (x : β) : Prop :=
  ∀ mode : Mode, mode.Allows n → reader mode v.document = .ok x

/-- What the reader comes to for the value wherever `n` more brackets may be opened: its value or its error. -/
def Gives (reader : Reader β) (v : Json) (n : ℕ) (r : Except ReadError β) : Prop :=
  ∀ mode : Mode, mode.Allows n → reader mode v.document = r

/-! ## Plain values -/

theorem Gives.run_indented {v : Json} {r : Except ReadError β} (h : reader.Gives v n r) (hn : n ≤ maxLevels) :
    reader.run v.indented = r := by
  rw [Json.run_indented]
  exact h _ (.inr hn)

theorem Reads.run {v : Json} {x : β} (h : reader.Reads v n x) (hn : n ≤ maxLevels) : reader.run v.compact = .ok x := by
  rw [run_compact]
  exact h _ (.inr hn)

theorem Reads.mono {v : Json} {x : β} {m : ℕ} (h : reader.Reads v m x) (hmn : m ≤ n) : reader.Reads v n x :=
  fun mode hmode => h mode (hmode.imp_right fun hn => Nat.le_trans hmn hn)

theorem Reads.text (s : String) : Reader.text.Reads (.string s) n s := by
  intro mode _
  rw [document, Reader.text, String.ofList_toList]

/-- What is written for a number that is not finite has the wrong shape. -/
theorem Gives.number (x : Float) :
    Reader.number.Gives (.number x) n (if Decimal.isFinite x then .ok x else wrongShape) := by
  intro mode _
  by_cases hx : Decimal.isFinite x
  · obtain ⟨l, hl, rfl⟩ := exists_numberDocument hx
    rw [document, hl, Reader.number, if_pos hx, if_pos hx]
  · rw [document, numberDocument_of_not_isFinite hx, if_neg hx]
    rfl

theorem Reads.number {x : Float} (hx : Decimal.isFinite x) : Reader.number.Reads (.number x) n x :=
  fun mode hmode => (Gives.number x mode hmode).trans (if_pos hx)

theorem Reads.natural {k : ℕ} (hk : k ≤ maxNatural) : Reader.natural.Reads (.natural k) n k := by
  intro mode _
  have hread : (true && !false && decide (k ≤ maxNatural)) = true := decide_eq_true hk
  rw [document, Reader.natural, if_pos hread]

/-- The items of an array are read one after the other. -/
theorem Reads.list {items : List Json} {xs : List β} (h : List.Forall₂ (fun v x => reader.Reads v n x) items xs) :
    reader.list.Reads (.array items) (n + 1) xs := by
  intro mode hmode
  obtain ⟨inner, hinner, hallows, -⟩ := hmode.inside
  have hitems : (documents items).mapM (reader inner) = .ok xs := by
    rw [mapM_eq_ok_iff]
    induction h with
    | nil => exact .nil
    | cons hv _ ih => exact .cons (hv inner hallows) ih
  rw [document, Reader.list, hinner]
  simp only [bind, Except.bind, hitems, passCut]
  rfl

theorem Reads.list_map {toJson : β → Json} {xs : List β} (h : ∀ x ∈ xs, reader.Reads (toJson x) n x) :
    reader.list.Reads (.array (xs.map toJson)) (n + 1) xs :=
  Reads.list (List.forall₂_map_left_iff.2 (List.forall₂_same.2 h))

/-- The items of an array have the results of its values, up to the first that is refused. -/
theorem Gives.list {γ : Type} {toJson : γ → Json} {result : γ → Except ReadError β} {xs : List γ}
    (h : ∀ x ∈ xs, reader.Gives (toJson x) n (result x)) :
    reader.list.Gives (.array (xs.map toJson)) (n + 1) (xs.mapM result) := by
  intro mode hmode
  obtain ⟨inner, hinner, hallows, -⟩ := hmode.inside
  have hitems : (documents (xs.map toJson)).mapM (reader inner) = xs.mapM result := by
    induction xs with
    | nil => rfl
    | cons x xs ih =>
      rw [List.map_cons, documents, List.mapM_cons, List.mapM_cons, h x List.mem_cons_self inner hallows,
        ih fun y hy => h y (List.mem_cons_of_mem x hy)]
  rw [document, Reader.list, hinner]
  simp only [bind, Except.bind, hitems, passCut]
  cases xs.mapM result <;> rfl

/-! ## Readers inside of readers -/

section

variable {γ : Type}

theorem Gives.check {v : Json} {r : Except ReadError β} (h : reader.Gives v n r)
    (f : β → Except ReadError γ) : (reader.check f).Gives v n (r >>= f) := by
  intro mode hmode
  rw [Reader.check, h mode hmode]

theorem Reads.check {v : Json} {x : β} {y : γ} {f : β → Except ReadError γ} (h : reader.Reads v n x)
    (hf : f x = .ok y) : (reader.check f).Reads v n y :=
  fun mode hmode => (Gives.check h f mode hmode).trans hf

theorem Reads.null : reader.optional.Reads .null n none := fun _ _ => rfl

/-- A value that is not written as `null` is there. -/
theorem Reads.present {v : Json} {x : β} (h : reader.Reads v n x) (hv : v.document ≠ .null) :
    reader.optional.Reads v n (some x) := by
  intro mode hmode
  have hread : reader.optional mode v.document = some <$> reader mode v.document := by
    unfold Reader.optional
    split
    · rename_i hnull
      exact absurd hnull hv
    · rfl
  rw [hread, h mode hmode]
  rfl

/-- A finite number or none. -/
theorem Reads.ofOption {x : Option Float} (h : ∀ y ∈ x, Decimal.isFinite y) :
    Reader.number.optional.Reads (.ofOption x) n x := by
  cases x with
  | none => exact Reads.null
  | some y =>
    obtain ⟨l, hl, -⟩ := exists_numberDocument (h y rfl)
    have hdocument : (Json.ofOption (some y)).document = .number l false := hl
    exact Reads.present (Reads.number (h y rfl)) (by rw [hdocument]; exact nofun)

/-- Two values of an array. -/
theorem Reads.pair {second : Reader γ} {v w : Json} {x : β} {y : γ} (hfirst : reader.Reads v n x)
    (hsecond : second.Reads w n y) : (reader.pair second).Reads (.array [v, w]) (n + 1) (x, y) := by
  intro mode hmode
  obtain ⟨inner, hinner, hallows, -⟩ := hmode.inside
  rw [document, Reader.pair, hinner]
  simp only [documents, nextItem, bind, Except.bind, hfirst inner hallows, hsecond inner hallows]
  rfl

end

/-! ## Records -/

section Records

variable {σ : Type} {fields : List (Field σ)}

/-- A member is read into the field of its name, and then the others. -/
theorem foldlM_readMember {mode : Mode} {key : String} {field : Field σ}
    (hfield : fields.find? (·.name == key) = some field) (draft : σ) (v : Json) (members : List (String × Json)) :
    (memberDocuments ((key, v) :: members)).foldlM (readMember fields mode) draft =
      field.read mode draft v.document >>= (memberDocuments members).foldlM (readMember fields mode) := by
  have hmember : readMember fields mode draft (some key.toList, v.document) = field.read mode draft v.document := by
    rw [readMember, memberName_toList]
    simp only [bind, Except.bind, hfield]
  rw [memberDocuments, List.foldlM_cons, hmember]

theorem foldlM_readMember_cons {mode : Mode} {draft draft' : σ} {key : String} {v : Json} {field : Field σ}
    (hfield : fields.find? (·.name == key) = some field) (hread : field.read mode draft v.document = .ok draft')
    (members : List (String × Json)) :
    (memberDocuments ((key, v) :: members)).foldlM (readMember fields mode) draft =
      (memberDocuments members).foldlM (readMember fields mode) draft' := by
  rw [foldlM_readMember hfield, hread]
  rfl

section Slots

variable {name : String} {get : σ → Option β} {set : σ → β → σ} {mayEnd : Bool} {mode : Mode} {draft : σ} {v : Json}

/-- What is read for a field goes into its slot. -/
theorem read_slot_of_gives {r : Except ReadError β} (hempty : get draft = none) (h : reader.Gives v n r)
    (hmode : mode.Allows n) :
    (Field.slot name get set reader mayEnd).read mode draft v.document = r.map (set draft) := by
  show (if (get draft).isSome then wrongShape else set draft <$> reader mode v.document) = _
  rw [hempty, h mode hmode]
  rfl

/-- A field is read into its slot. -/
theorem read_slot {x : β} (hempty : get draft = none) (h : reader.Reads v n x) (hmode : mode.Allows n) :
    (Field.slot name get set reader mayEnd).read mode draft v.document = .ok (set draft x) :=
  read_slot_of_gives hempty h hmode

end Slots

/-- A record comes to what its members come to. -/
theorem Gives.record {start : σ} {members : List (String × Json)} {r : Except ReadError σ}
    (h : ∀ mode : Mode, mode.Allows n →
      (memberDocuments members).foldlM (readMember fields mode) start = r) :
    (Reader.record fields start).Gives (.object members) (n + 1) r := by
  intro mode hmode
  obtain ⟨inner, hinner, hallows, -⟩ := hmode.inside
  rw [document, Reader.record, hinner]
  simp only [bind, Except.bind, h inner hallows, passEnding]
  cases r <;> rfl

/-- A record is read from its members. -/
theorem Reads.record {start draft : σ} {members : List (String × Json)}
    (h : ∀ mode : Mode, mode.Allows n →
      (memberDocuments members).foldlM (readMember fields mode) start = .ok draft) :
    (Reader.record fields start).Reads (.object members) (n + 1) draft := Gives.record h

end Records

/-- A record of one field. -/
theorem Gives.single {name : String} {v : Json} {r : Except ReadError β} (h : reader.Gives v n r) :
    (Reader.single name reader).Gives (.object [(name, v)]) (n + 1) r := by
  have hrecord : (Reader.record [.slot name id (fun _ value => some value) reader false] none).Gives
      (.object [(name, v)]) (n + 1) (r.map some) := by
    refine Gives.record fun mode hmode => ?_
    rw [foldlM_readMember (List.find?_cons_of_pos (beq_self_eq_true name)), read_slot_of_gives rfl h hmode]
    cases r <;> rfl
  intro mode hmode
  rw [Reader.single, Gives.check hrecord required mode hmode]
  cases r <;> rfl

theorem Reads.single {name : String} {v : Json} {x : β} (h : reader.Reads v n x) :
    (Reader.single name reader).Reads (.object [(name, v)]) (n + 1) x := Gives.single h

/-! ## Tagged records -/

section Tagged

variable {key name : String} {variants : List (String × β)} {variant : β}

/-- A member of a tagged record is taken for its tag or kept. -/
def keepMember (key : String) (variants : List (String × β)) (mode inner : Mode) :
    Option β × List (Option (List Char) × Document) → Option (List Char) × Document →
      Except ReadError (Option β × List (Option (List Char) × Document))
  | (found, rest), (name, d) => do
    let name ← memberName name
    if name = key then
      if Option.isSome found then wrongShape
      else return (some (← tag variants inner d), rest)
    else
      unless mode.kept do d.check inner
      return (found, (some name.toList, d) :: rest)

theorem tagged_of_members (mode : Mode) (members : List (Option (List Char) × Document)) :
    Reader.tagged key variants mode (.object members .closed) = mode.inside >>= fun inner =>
      members.foldlM (keepMember key variants mode inner) (none, []) >>= fun (found, rest) =>
        (required found).map fun variant => (variant, .object rest.reverse .closed) := rfl

/-- Members are checked when they are kept, unless the whole record is kept itself. -/
def checkKept (mode inner : Mode) (members : List (String × Json)) : Except ReadError Unit :=
  if mode.kept then .ok () else checkMembers inner (memberDocuments members)

theorem checkKept_cons (mode inner : Mode) (name : String) (v : Json) (members : List (String × Json)) :
    checkKept mode inner ((name, v) :: members) =
      (if mode.kept then .ok () else v.document.check inner) >>= fun _ => checkKept mode inner members := by
  unfold checkKept
  split
  · rfl
  · rw [memberDocuments, checkMembers, memberName_toList]
    rfl

/-- A single member is kept if its value may be. -/
theorem checkKept_singleton {mode inner : Mode} {v : Json} (h : v.document.check inner = .ok ()) (name : String) :
    checkKept mode inner [(name, v)] = .ok () := by
  rw [checkKept_cons, h, ite_self]
  exact ite_self _

theorem keepMember_of_ne {mode inner : Mode} (hname : name ≠ key) (found : Option β)
    (rest : List (Option (List Char) × Document)) (d : Document) :
    keepMember key variants mode inner (found, rest) (some name.toList, d) =
      (if mode.kept then .ok () else d.check inner).map fun _ => (found, (some name.toList, d) :: rest) := by
  rw [keepMember, memberName_toList]
  simp only [bind, Except.bind, hname, ↓reduceIte]
  cases mode.kept with
  | true => rfl
  | false => cases d.check inner <;> rfl

/-- Members that are not the tag are kept, the latest first. -/
theorem foldlM_keepMember (mode inner : Mode) : ∀ (members : List (String × Json)), (∀ m ∈ members, m.1 ≠ key) →
    ∀ rest, (memberDocuments members).foldlM (keepMember key variants mode inner) (some variant, rest) =
      (checkKept mode inner members).map fun _ => (some variant, (memberDocuments members).reverse ++ rest)
  | [], _, rest => by
    unfold checkKept
    split <;> rfl
  | (name, v) :: vs, hkey, rest => by
    rw [memberDocuments, List.foldlM_cons, keepMember_of_ne (hkey _ List.mem_cons_self), checkKept_cons]
    cases (if mode.kept then .ok () else v.document.check inner : Except ReadError Unit) with
    | error error => rfl
    | ok _ =>
      have ih := foldlM_keepMember mode inner vs (fun m hm => hkey m (List.mem_cons_of_mem _ hm))
        ((some name.toList, v.document) :: rest)
      rw [List.reverse_cons, List.append_assoc]
      exact ih

/-- **The members behind the tag are kept in their order.** -/
theorem tagged_object (hname : variants.lookup name = some variant) {members : List (String × Json)}
    (hkey : ∀ m ∈ members, m.1 ≠ key) (mode : Mode) :
    Reader.tagged key variants mode (Json.object ((key, .string name) :: members)).document =
      (mode.inside >>= fun inner => checkKept mode inner members).map
        fun _ => (variant, (Json.object members).document) := by
  have htag : ∀ inner, keepMember key variants mode inner (none, []) (some key.toList, (Json.string name).document) =
      .ok (some variant, []) := by
    intro inner
    have hread : tag variants inner (Json.string name).document = .ok variant := by
      show (Reader.text inner (Json.string name).document >>= variantOf variants) = _
      rw [Reads.text (n := 0) name inner (.inr (Nat.zero_le _))]
      show variantOf variants name = _
      rw [variantOf, hname]
    rw [keepMember, memberName_toList]
    simp only [bind, Except.bind, ↓reduceIte, Option.isSome_none, Bool.false_eq_true, hread]
    rfl
  rw [document, memberDocuments, tagged_of_members]
  cases mode.inside with
  | error error => rfl
  | ok inner =>
    show ((_ :: memberDocuments members).foldlM (keepMember key variants mode inner) (none, []) >>= _) =
      (checkKept mode inner members).map _
    rw [List.foldlM_cons, htag]
    show ((memberDocuments members).foldlM (keepMember key variants mode inner) (some variant, []) >>= _) = _
    rw [foldlM_keepMember mode inner members hkey, List.append_nil]
    cases checkKept mode inner members with
    | error error => rfl
    | ok _ =>
      show Except.ok (variant, Document.object (memberDocuments members).reverse.reverse .closed) = _
      rw [List.reverse_reverse]
      rfl

/-- What comes of a tagged record when its tag is known and the members behind it are read a second time. -/
theorem tagged_object_bind {γ : Type} (hname : variants.lookup name = some variant) {members : List (String × Json)}
    (hkey : ∀ m ∈ members, m.1 ≠ key) (mode : Mode) (second : β × Document → Except ReadError γ) :
    (Reader.tagged key variants mode (Json.object ((key, .string name) :: members)).document >>= second) =
      (mode.inside >>= fun inner => checkKept mode inner members) >>= fun _ =>
        second (variant, (Json.object members).document) := by
  rw [tagged_object hname hkey]
  cases mode.inside >>= fun inner => checkKept mode inner members <;> rfl

end Tagged

end Reader

end SeriesFormula.Json
