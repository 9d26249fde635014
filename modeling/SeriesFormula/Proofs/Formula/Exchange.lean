import SeriesFormula.Exchange.Decode
import SeriesFormula.Exchange.Encode
import SeriesFormula.Proofs.Formula.Canonical
import SeriesFormula.Proofs.Json.Written

/-!
# Expressions as documents

A call takes two brackets in its JSON form, that of the call and that of its arguments, so that a tree of depth `d` has
`2 · d` or `2 · d + 1` of them inside of each other (`brackets_bounds`). Where so many may be opened, a tree with finite
numbers is read back (`reads_toJson`); where they may not, the outermost call is refused while its arguments are kept
for the tag (`check_toJson`). Since documents may have 127 brackets, trees up to the depth 63 are read back from their
JSON form and all others are refused (`run_compact_of_parse`): one level of calls less than the standard policy allows.
-/

namespace SeriesFormula.Expr

open Json

/-! ## Finite numbers -/

mutual

/-- All numbers of an expression are finite. -/
def Finite : Expr Float → Prop
  | call _ args => FiniteAll args
  | identifier _ => True
  | literal x => Decimal.isFinite x

def FiniteAll : List (Expr Float) → Prop
  | [] => True
  | e :: es => e.Finite ∧ FiniteAll es

end

mutual

/-- The numbers of a formula are finite. -/
theorem finite_of_derives : ∀ {cs : List Char} {e : Expr Float}, Formula.Derives cs e → e.Finite
  | _, _, .call _ _ hargs => finiteAll_of_derivesArguments hargs
  | _, _, .identifier _ _ => trivial
  | _, _, .number _ hx => hx

theorem finiteAll_of_derivesArguments : ∀ {cs : List Char} {es : List (Expr Float)},
    Formula.DerivesArguments cs es → FiniteAll es
  | _, _, .none => trivial
  | _, _, .last he => ⟨finite_of_derives he, trivial⟩
  | _, _, .more he hes => ⟨finite_of_derives he, finiteAll_of_derivesArguments hes⟩

end

/-! ## Brackets -/

mutual

/-- How deep brackets are nested in the JSON form. -/
def brackets : Expr Float → ℕ
  | call _ args => bracketsOfList args + 2
  | identifier _ => 1
  | literal _ => 1

def bracketsOfList : List (Expr Float) → ℕ
  | [] => 0
  | e :: es => max e.brackets (bracketsOfList es)

end

/-- The JSON form of each tree is an object. -/
theorem brackets_pred (e : Expr Float) : e.brackets - 1 + 1 = e.brackets := by cases e <;> rfl

mutual

theorem brackets_bounds : ∀ e : Expr Float, 2 * e.depth ≤ e.brackets ∧ e.brackets ≤ 2 * e.depth + 1
  | call _ args => by
    have h := bracketsOfList_bounds args
    rw [depth, brackets]
    omega
  | identifier _ => ⟨Nat.zero_le 1, Nat.le_refl 1⟩
  | literal _ => ⟨Nat.zero_le 1, Nat.le_refl 1⟩

theorem bracketsOfList_bounds : ∀ es : List (Expr Float),
    2 * depthOfList es ≤ bracketsOfList es ∧ bracketsOfList es ≤ 2 * depthOfList es + 1
  | [] => by decide
  | e :: es => by
    have he := brackets_bounds e
    have hes := bracketsOfList_bounds es
    rw [depthOfList, bracketsOfList]
    omega

end

/-! ## Two readings -/

/-- The tag of an expression and its name. -/
def tag : Expr Float → String × Tag
  | call .. => ("call", .call)
  | identifier _ => ("identifier", .identifier)
  | literal _ => ("literal", .literal)

/-- The members behind the tag. -/
def members : Expr Float → List (String × Json)
  | call name args => [("name", .string name), ("args", .array (listToJson args))]
  | identifier name => [("name", .string name)]
  | literal value => [("value", .number value)]

theorem toJson_eq (e : Expr Float) : e.toJson = .object (("kind", .string e.tag.1) :: e.members) := by
  cases e <;> rfl

/-- The second reading: what was kept for the tag, with calls of fewer than `fuel` brackets around each other in the
arguments. -/
def readKept (fuel : ℕ) : Tag → Reader (Expr Float)
  | .call => fun mode rest => do
    let draft ← Reader.record [
      .slot "name" Draft.name (fun draft v => { draft with name := some v }) .text false,
      .slot "args" Draft.args (fun draft v => { draft with args := some v }) (.list (readerWithin fuel)) false] {}
      mode rest
    return .call (← Reader.required draft.name) (← Reader.required draft.args)
  | .identifier => fun mode rest => .identifier <$> Reader.single "name" .text mode rest
  | .literal => fun mode rest => .literal <$> Reader.single "value" .number mode rest

/-- The first reading checks the members behind the tag, unless they were kept before, and leaves them to the second. -/
theorem readerWithin_toJson (fuel : ℕ) (mode : Mode) (e : Expr Float) :
    readerWithin (fuel + 1) mode e.toJson.document =
      (mode.inside >>= fun inner => Reader.checkKept mode inner e.members) >>= fun _ =>
        readKept fuel e.tag.2 { mode with kept := true } (Json.object e.members).document := by
  have htag : [("call", Tag.call), ("identifier", .identifier), ("literal", .literal)].lookup e.tag.1 =
      some e.tag.2 := by cases e <;> rfl
  have hmembers : ∀ m ∈ e.members, m.1 ≠ "kind" := by cases e <;> simp [members]
  show (Reader.tagged "kind" _ mode e.toJson.document >>= _) = _
  rw [toJson_eq, Reader.tagged_object_bind htag hmembers mode]
  cases e <;> rfl

/-! ## What is checked -/

/-- A tree is kept if what stands behind its tag is. -/
theorem check_toJson {e : Expr Float}
    (h : ∀ outer levels, Reader.checkKept ⟨outer, false⟩ ⟨levels, false⟩ e.members = grant (e.brackets - 1) levels)
    (levels : ℕ) : e.toJson.document.check ⟨levels, false⟩ = grant e.brackets levels := by
  rw [toJson_eq, ← brackets_pred]
  refine inside_bind_grant fun inner => ?_
  rw [← h levels inner]
  show ((memberName (some "kind".toList) >>= fun _ => checkMembers ⟨inner, false⟩ (memberDocuments e.members)) >>=
    fun _ => passEnding .closed) = checkMembers ⟨inner, false⟩ (memberDocuments e.members)
  rw [memberName_toList]
  exact bind_pure _

mutual

/-- The members behind the tag are checked by their brackets alone. -/
theorem checkKept_members : ∀ e : Expr Float, e.Finite → ∀ outer levels,
    Reader.checkKept ⟨outer, false⟩ ⟨levels, false⟩ e.members = grant (e.brackets - 1) levels
  | call name args, h, outer, levels => by
    have hargs : (Json.array (listToJson args)).document.check ⟨levels, false⟩ =
        grant (bracketsOfList args + 1) levels := by
      refine inside_bind_grant fun inner => ?_
      rw [← checkItems_listToJson args h inner]
      exact bind_pure _
    rw [members, Reader.checkKept_cons, Reader.checkKept_cons]
    show ((Json.array (listToJson args)).document.check ⟨levels, false⟩ >>= fun _ => pure ()) = _
    rw [hargs]
    exact bind_pure _
  | identifier _, _, _, _ => rfl
  | literal x, _, outer, levels => by
    rw [members, Reader.checkKept_cons]
    show ((Json.number x).document.check ⟨levels, false⟩ >>= fun _ => .ok ()) = _
    rw [check_number]
    rfl

theorem checkItems_listToJson : ∀ es : List (Expr Float), FiniteAll es → ∀ levels,
    checkItems ⟨levels, false⟩ (documents (listToJson es)) = grant (bracketsOfList es) levels
  | [], _, _ => rfl
  | e :: es, h, levels => by
    have he := check_toJson (checkKept_members e h.1) levels
    have hes := checkItems_listToJson es h.2 levels
    rw [bracketsOfList, grant_max, ← he, ← hes]
    rfl

end

/-! ## What is read -/

theorem reads_call {fuel : ℕ} {args : List (Expr Float)} (name : String)
    (h : List.Forall₂ (fun v x => (readerWithin fuel).Reads v (bracketsOfList args) x) (listToJson args) args) :
    (readKept fuel .call).Reads (.object (call name args).members) (call name args).brackets (call name args) := by
  have hrecord : (Reader.record [
      .slot "name" Draft.name (fun draft v => { draft with name := some v }) .text false,
      .slot "args" Draft.args (fun draft v => { draft with args := some v }) (.list (readerWithin fuel)) false]
      {}).Reads (.object (call name args).members) (call name args).brackets ⟨some name, some args⟩ := by
    refine Reader.Reads.record fun mode hmode => ?_
    rw [members, Reader.foldlM_readMember_cons rfl (Reader.read_slot rfl (Reader.Reads.text name) hmode),
      Reader.foldlM_readMember_cons rfl (Reader.read_slot rfl (Reader.Reads.list h) hmode)]
    rfl
  intro mode hmode
  show (Reader.record _ _ mode (Json.object (call name args).members).document >>= _) = _
  rw [hrecord mode hmode]
  rfl

/-- A tree is read if it is in the second reading. -/
theorem reads_of_readKept {fuel : ℕ} {e : Expr Float} (hfinite : e.Finite)
    (h : (readKept fuel e.tag.2).Reads (.object e.members) e.brackets e) :
    (readerWithin (fuel + 1)).Reads e.toJson e.brackets e := by
  intro mode hmode
  rw [← brackets_pred] at hmode
  obtain ⟨⟨levels, kept⟩, hinside, hallows, rfl⟩ := hmode.inside
  have hkept : Reader.checkKept mode ⟨levels, mode.kept⟩ e.members = .ok () := by
    obtain ⟨outer, kept⟩ := mode
    cases kept with
    | true => rfl
    | false =>
      rw [checkKept_members e hfinite, grant, if_pos (hallows.resolve_left Bool.false_ne_true)]
  have hsecond := h { mode with kept := true } (.inl rfl)
  rw [readerWithin_toJson, hinside]
  show (Reader.checkKept mode ⟨levels, mode.kept⟩ e.members >>= _) = _
  rw [hkept]
  exact hsecond

mutual

/-- **A tree with finite numbers is read back where its brackets may be opened.** -/
theorem reads_toJson : ∀ e : Expr Float, e.Finite → ∀ {fuel : ℕ}, e.depth < fuel →
    (readerWithin fuel).Reads e.toJson e.brackets e
  | e, _, 0, hfuel => absurd hfuel (Nat.not_lt_zero _)
  | call name args, h, fuel + 1, hfuel => by
    have hargs : depthOfList args < fuel := by
      rw [depth] at hfuel
      omega
    exact reads_of_readKept h (reads_call name (reads_listToJson args h hargs (Nat.le_refl _)))
  | identifier name, h, fuel + 1, _ => by
    refine reads_of_readKept h fun mode hmode => ?_
    show identifier <$> Reader.single "name" .text mode (Json.object [("name", .string name)]).document = _
    rw [Reader.Reads.single (n := 0) (Reader.Reads.text name) mode hmode]
    rfl
  | literal x, h, fuel + 1, _ => by
    refine reads_of_readKept h fun mode hmode => ?_
    show literal <$> Reader.single "value" .number mode (Json.object [("value", .number x)]).document = _
    rw [Reader.Reads.single (n := 0) (Reader.Reads.number h) mode hmode]
    rfl

theorem reads_listToJson : ∀ es : List (Expr Float), FiniteAll es → ∀ {fuel n : ℕ}, depthOfList es < fuel →
    bracketsOfList es ≤ n → List.Forall₂ (fun v x => (readerWithin fuel).Reads v n x) (listToJson es) es
  | [], _, _, _, _, _ => .nil
  | e :: es, h, fuel, n, hfuel, hn => by
    rw [depthOfList] at hfuel
    rw [bracketsOfList] at hn
    have he : (readerWithin fuel).Reads e.toJson n e := (reads_toJson e h.1 (by omega)).mono (by omega)
    exact .cons he (reads_listToJson es h.2 (by omega) (by omega))

end

/-! ## Whole texts -/

/-- A tree with finite numbers is read back from its JSON form iff that has no more brackets than may be opened. -/
theorem run_compact {e : Expr Float} (h : e.Finite) :
    reader.run e.toJson.compact = if e.brackets ≤ maxLevels then .ok e else .error (.document .syntactic) := by
  have hbounds := brackets_bounds e
  split
  · rename_i hlevels
    exact (reads_toJson e h (by omega)).run hlevels
  · rename_i hlevels
    have hkept : (Mode.inside ⟨maxLevels, false⟩ >>= fun inner => Reader.checkKept ⟨maxLevels, false⟩ inner e.members) =
        .error (.document .syntactic) := by
      rw [inside_bind_grant fun inner => checkKept_members e h maxLevels inner, brackets_pred, grant, if_neg hlevels]
    rw [Json.run_compact, reader, readerWithin_toJson, hkept]
    rfl

/-- **A formula's tree is read back from its JSON form iff its depth is below the limit of the standard policy**; at the
limit itself the JSON form has a bracket too many. -/
theorem run_compact_of_parse {formula : String} {e : Expr Float} (h : Formula.parse .standard formula = .ok e) :
    reader.run e.toJson.compact =
      if e.depth < Policy.standard.maxDepth then .ok e else .error (.document .syntactic) := by
  obtain ⟨-, he, hdepth⟩ := Formula.parse_eq_ok_iff.1 h
  have hbounds := brackets_bounds e
  have hlevels : e.brackets ≤ maxLevels ↔ e.depth < Policy.standard.maxDepth := by
    have hmax : maxLevels = 127 := rfl
    have hstandard : Policy.standard.maxDepth = 64 := rfl
    omega
  rw [run_compact (finite_of_derives he)]
  exact ite_congr (propext hlevels) (fun _ => rfl) fun _ => rfl

/-- Calls inside of each other, one without arguments, with an exponent and a negative zero. -/
theorem run_compact_of_parse_nested :
    ∃ e, Formula.parse .standard "ROC(MA(GDP_Q1, 0.3e1), -0, F())" = .ok e ∧ reader.run e.toJson.compact = .ok e := by
  let e : Expr Float := .call "ROC" [.call "MA" [.identifier "GDP_Q1", .literal 3], .literal (-0.0), .call "F" []]
  have hread : Formula.parse .standard "ROC(MA(GDP_Q1, 0.3e1), -0, F())" = .ok e := by with_unfolding_all rfl
  have hdepth : e.depth < Policy.standard.maxDepth := by
    show 2 < 64
    omega
  have hrun := run_compact_of_parse hread
  rw [if_pos hdepth] at hrun
  exact ⟨e, hread, hrun⟩

/-! ## The limit -/

/-- Calls of `F` around each other and around `X`. -/
def tower : ℕ → Expr Float
  | 0 => .identifier "X"
  | n + 1 => .call "F" [tower n]

theorem depth_tower : ∀ n, (tower n).depth = n
  | 0 => rfl
  | n + 1 => by
    have h := depth_tower n
    rw [tower, depth, depthOfList, depthOfList]
    omega

/-- Each tower is a formula. -/
theorem derives_tower : ∀ n, Formula.Derives (tower n).chars (tower n)
  | 0 => .identifier (c := 'X') (by decide) (List.forall_mem_nil _)
  | n + 1 => by
    have hargs : Formula.DerivesArguments (tower n).chars [tower n] := .last (derives_tower n)
    have hname : ∀ c ∈ ['F'], Formula.isNameChar c := by
      intro c hc
      rw [List.mem_singleton.1 hc]
      decide
    exact .call (List.cons_ne_nil 'F' []) hname hargs

/-- At the depth that the standard policy still allows, a formula's tree is not read back. -/
theorem run_compact_tower : Formula.parse .standard (tower 64).text = .ok (tower 64) ∧
    reader.run (tower 64).toJson.compact = .error (.document .syntactic) := by
  have hderives := derives_tower 64
  refine ⟨Formula.parse_eq_ok_iff.2 ⟨by decide +kernel, ?_, Nat.le_of_eq (depth_tower 64)⟩, ?_⟩
  · rw [text, String.toList_ofList, Text.squeeze_of_solid hderives.solid]
    exact hderives
  · have hbounds := brackets_bounds (tower 64)
    have hdepth := depth_tower 64
    have hmax : maxLevels = 127 := rfl
    rw [run_compact (finite_of_derives hderives), if_neg (by omega)]

end SeriesFormula.Expr
