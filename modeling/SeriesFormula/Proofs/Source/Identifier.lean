import SeriesFormula.Fixture.Basic
import SeriesFormula.Proofs.Source.Document
import SeriesFormula.Proofs.Text.Bytes

/-!
# Identifiers in any case

A context is built in steps: single series are added, or it is made anew from a list of series or a map. However it is
built, it is the context of the list of all series that were given since it was last made anew
(`Context.build_eq_ofList`). So the case of the letters does not matter on any way (`Context.isOf_ofList`): the last
series counts that was given under the letters of an identifier.

A document is taken in the order of its names. The map that is read from it, the context of this map and the context of
a fixture with the same data find for an identifier the observations of the greatest name with its letters
(`Context.resolves_alike`).
-/

namespace SeriesFormula

/-! ## What an identifier stands for -/

/-- Wherever it stands, the identifier is evaluated to the series, or it is unknown if there is none. -/
def Store.Resolves {α : Type} [Number α] (store : Store α) (name : String) (found : Option (Series α)) : Prop :=
  ∀ registry policy depth, (Expr.identifier name).evaluateAt ⟨store, registry, policy⟩ depth =
    ⟨found.elim (.error (.unknownIdentifier name)) fun s => .ok (.series s), []⟩

theorem Store.resolves {α : Type} [Number α] {store : Store α} {name : String} {found : Option (Series α)}
    (h : store (Text.lower name) = found) : store.Resolves name found := by
  intro registry policy depth
  rw [Expr.evaluateAt]
  dsimp only
  rw [h]
  cases found <;> rfl

namespace Context

variable {α : Type}

/-! ## Steps -/

/-- A step in which a context is built. -/
inductive Step (α : Type) where
  | insert (id : String) (s : Series α)
  | insertSeries (s : Series α)
  /-- The context is made anew from series by their names. -/
  | ofSeries (series : List (Series α))
  /-- The context is made anew from a map. -/
  | ofMap (map : Std.TreeMap String (Series α))

/-- The context after a step. -/
def Step.apply (context : Context α) : Step α → Context α
  | insert id s => context.insert id s
  | insertSeries s => context.insertSeries s
  | ofSeries series => Context.ofSeries series
  | ofMap map => Context.ofMap map

/-- The series that were given under identifiers, after a step. -/
def Step.record (entries : List (String × Series α)) : Step α → List (String × Series α)
  | insert id s => entries ++ [(id, s)]
  | insertSeries s => entries ++ [(s.name, s)]
  | ofSeries series => series.map fun s => (s.name, s)
  | ofMap map => map.toList

/-- The context that is built in some steps. -/
def build (steps : List (Step α)) : Context α := steps.foldl Step.apply empty

/-- The series that are given under identifiers in some steps, since the context was last made anew. -/
def given (steps : List (Step α)) : List (String × Series α) := steps.foldl Step.record []

/-- One more series at the end of a list. -/
theorem ofList_concat (entries : List (String × Series α)) (id : String) (s : Series α) :
    ofList (entries ++ [(id, s)]) = (ofList entries).insert id s := by
  simp [ofList, List.foldl_append]

/-- **One step** keeps a context that of the series that were given. -/
theorem apply_ofList (entries : List (String × Series α)) (step : Step α) :
    step.apply (ofList entries) = ofList (step.record entries) := by
  cases step with
  | insert id s => exact (ofList_concat entries id s).symm
  | insertSeries s => exact (ofList_concat entries s.name s).symm
  | ofSeries series =>
    show Context.ofSeries series = ofList (series.map fun s => (s.name, s))
    rw [Context.ofSeries, ofList, List.foldl_map]
    rfl
  | ofMap map => rfl

/-- **A context is that of the series that were given**, however it was built. -/
theorem build_eq_ofList (steps : List (Step α)) : build steps = ofList (given steps) := by
  have hrun : ∀ entries, steps.foldl Step.apply (ofList entries) = ofList (steps.foldl Step.record entries) := by
    induction steps with
    | nil => exact fun _ => rfl
    | cons step steps ih =>
      intro entries
      rw [List.foldl_cons, List.foldl_cons, apply_ofList]
      exact ih _
  exact hrun []

/-! ## The context of a list -/

/-- The identifiers of a list's context are those of the list, in small letters. -/
theorem mem_ids_ofList {entries : List (String × Series α)} {id : String} :
    id ∈ (ofList entries).ids ↔ id ∈ entries.map fun entry => Text.lower entry.1 := by
  rw [mem_ids_iff, get?_ofList, ← Option.isSome_iff_exists, List.findSome?_isSome_iff]
  simp [supplied?]

/-- A list's context holds as many series as the list has identifiers that differ in more than the case of letters. -/
theorem size_ofList (entries : List (String × Series α)) :
    (ofList entries).size = (entries.map fun entry => Text.lower entry.1).dedup.length := by
  have hkeys : (ofList entries).ids.length = (ofList entries).size := Std.TreeMap.length_keys
  have hperm : (ofList entries).ids.Perm (entries.map fun entry => Text.lower entry.1).dedup := by
    have hnodup : (ofList entries).ids.Nodup := Std.TreeMap.nodup_keys
    rw [List.perm_ext_iff_of_nodup hnodup (List.nodup_dedup _)]
    intro id
    rw [mem_ids_ofList, List.mem_dedup]
  rw [← hkeys, hperm.length_eq]

/-- The first entry whose name has the letters of an identifier. -/
theorem findSome?_letters {β γ : Type} (f : String × β → γ) (name : String) (entries : List (String × β)) :
    (entries.findSome? fun entry => if Text.lower entry.1 = Text.lower name then some (f entry) else none) =
      (entries.find? fun entry => Text.sameLetters entry.1 name).map f := by
  induction entries with
  | nil => rfl
  | cons entry rest ih =>
    rw [List.findSome?_cons, ih]
    by_cases h : Text.lower entry.1 = Text.lower name
    · rw [List.find?_cons_of_pos (by simpa [Text.sameLetters] using h), if_pos h]
      rfl
    · rw [List.find?_cons_of_neg (by simpa [Text.sameLetters] using h), if_neg h]

/-- The last series under the letters of an identifier is found. -/
theorem get?_ofList_lower (entries : List (String × Series α)) (name : String) :
    (ofList entries).get? (Text.lower name) =
      (entries.reverse.find? fun entry => Text.sameLetters entry.1 name).map (·.2) := by
  rw [get?_ofList]
  exact findSome?_letters (·.2) name entries.reverse

/-- The context of some series by identifiers: it keeps the identifiers in small letters, those that differ in case only
as one, and of the series under such identifiers the last one counts. -/
structure IsOf [Number α] (context : Context α) (entries : List (String × Series α)) : Prop where
  lower : ∀ id ∈ context.ids, Text.lower id = id
  size : context.size = (entries.map fun entry => Text.lower entry.1).dedup.length
  resolves : ∀ name, context.store.Resolves name
    ((entries.reverse.find? fun entry => Text.sameLetters entry.1 name).map (·.2))

theorem isOf_ofList [Number α] (entries : List (String × Series α)) : (ofList entries).IsOf entries where
  lower id hid := by
    obtain ⟨s, hs⟩ := mem_ids_iff.1 hid
    exact isLower_ofList entries id s hs
  size := size_ofList entries
  resolves name := Store.resolves (get?_ofList_lower entries name)

end Context

/-! ## Documents -/

/-- The observations under the greatest of the names that have the letters of an identifier. -/
structure ObservationMap.IsGreatest (map : ObservationMap) (name : String)
    (entry : String × List (Observation Float)) : Prop where
  mem : entry ∈ map.toList
  letters : Text.sameLetters entry.1 name
  greatest : ∀ other ∈ map.toList, Text.sameLetters other.1 name → Text.bytes other.1 ≤ Text.bytes entry.1

/-- The last entry with the letters of an identifier, in the order of the names, has the greatest name. -/
theorem ObservationMap.isGreatest_of_find? {map : ObservationMap} {name : String}
    {entry : String × List (Observation Float)}
    (h : (map.toList.reverse.find? fun entry => Text.sameLetters entry.1 name) = some entry) :
    map.IsGreatest name entry := by
  obtain ⟨hletters, before, after, hsplit, hbefore⟩ := List.find?_eq_some_iff_append.1 h
  have hordered : (before ++ entry :: after).Pairwise fun a b => compare b.1 a.1 = .lt := by
    rw [← hsplit, List.pairwise_reverse]
    exact Std.TreeMap.ordered_keys_toList
  refine ⟨List.mem_reverse.1 (List.mem_of_find?_eq_some h), hletters, fun other hm hother => ?_⟩
  rw [← List.mem_reverse, hsplit, List.mem_append, List.mem_cons] at hm
  rcases hm with hm | rfl | hm
  · exact absurd hother (by simpa using hbefore other hm)
  · exact List.le_refl _
  · have hbelow := (List.pairwise_cons.1 (List.pairwise_append.1 hordered).2.1).1 other hm
    exact List.le_of_lt (Text.bytes_lt_bytes (compareOfLessAndEq_eq_lt.1 hbelow))

namespace Context

variable {text : String} {found : Context Float} {map : ObservationMap}

/-- The context of the map that was read from a document is that of the document. -/
theorem get?_ofMap_of_ofDocument (h : ofDocument text = .ok found) (id : String) :
    (ofMap found.entries).get? id = found.get? id := by
  have hlower : found.IsLower := fun id s hs => (of_ofDocument h hs).1
  have hget := get?_foldl_toList hlower (fun s => s) empty id
  rw [get?_empty, Option.or_none, Option.map_id'] at hget
  exact hget

/-- What a document gives for an identifier. -/
theorem get?_lower_of_ofDocument (h : ofDocument text = .ok found) (hmap : ObservationMap.reader.run text = .ok map)
    (name : String) :
    found.get? (Text.lower name) = (map.toList.reverse.find? fun entry => Text.sameLetters entry.1 name).map
      fun entry => ⟨Text.lower name, entry.2⟩ := by
  obtain ⟨map', hmap', -, hget⟩ := get?_of_ofDocument h
  cases hmap'.symm.trans hmap
  rw [hget]
  exact findSome?_letters (fun entry => (⟨Text.lower name, entry.2⟩ : Series Float)) name _

/-- What a fixture's context has for an identifier. -/
theorem get?_evalContext (fixture : Fixture) (name : String) :
    fixture.evalContext.get? (Text.lower name) =
      (fixture.context.toList.reverse.find? fun entry => Text.sameLetters entry.1 name).map
        fun entry => ⟨entry.1, entry.2⟩ := by
  rw [Fixture.evalContext, get?_ofList_lower, ← List.map_reverse, List.find?_map, Option.map_map]
  rfl

/-- The map of a document, the context of this map and a fixture's context find for an identifier the observations of
the greatest name with its letters, or none if there is no such name. The series are named in small letters, but the
fixture's as it names its observations. -/
inductive Alike (found : Context Float) (fixture : Fixture) (name : String) : Prop
  | known {entry : String × List (Observation Float)} : fixture.context.IsGreatest name entry →
      (Store.ofMap found.entries).Resolves name (some ⟨Text.lower name, entry.2⟩) →
      (ofMap found.entries).store.Resolves name (some ⟨Text.lower name, entry.2⟩) →
      fixture.evalContext.store.Resolves name (some ⟨entry.1, entry.2⟩) → Alike found fixture name
  | unknown : (∀ entry ∈ fixture.context.toList, Text.sameLetters entry.1 name = false) →
      (Store.ofMap found.entries).Resolves name none → (ofMap found.entries).store.Resolves name none →
      fixture.evalContext.store.Resolves name none → Alike found fixture name

/-- **Identifiers are resolved alike on all ways.** A context that is built in any steps is that of the series given in
them. The map of a document, its context and the context of a fixture with the same data resolve each identifier
alike. -/
theorem resolves_alike : (∀ steps : List (Step Float), (build steps).IsOf (given steps)) ∧
    ∀ (text : String) (found : Context Float) (fixture : Fixture), ofDocument text = .ok found →
      ObservationMap.reader.run text = .ok fixture.context → ∀ name, Alike found fixture name := by
  refine ⟨fun steps => build_eq_ofList steps ▸ isOf_ofList (given steps), fun text found fixture h hmap name => ?_⟩
  have hfound := get?_lower_of_ofDocument h hmap name
  have hofMap := get?_ofMap_of_ofDocument h (Text.lower name)
  have hfixture := get?_evalContext fixture name
  rw [hfound] at hofMap
  cases hfind : fixture.context.toList.reverse.find? fun entry => Text.sameLetters entry.1 name with
  | some entry =>
    rw [hfind] at hfound hofMap hfixture
    exact .known (ObservationMap.isGreatest_of_find? hfind) (Store.resolves hfound) (Store.resolves hofMap)
      (Store.resolves hfixture)
  | none =>
    rw [hfind] at hfound hofMap hfixture
    exact .unknown (by simpa using hfind) (Store.resolves hfound) (Store.resolves hofMap) (Store.resolves hfixture)

/-- Three spellings in a document, and three more in steps. -/
theorem resolves_alike_spellings :
    let text := "\x7b\"gdp\": [[\"2020-01-01\", 3]], \"GDP\": [[\"2020-01-01\", 1]], \"Gdp\": []\x7d"
    let steps : List (Step Float) := [.ofSeries [⟨"GDP", []⟩], .insert "gDP" ⟨"x", []⟩, .insertSeries ⟨"Gdp", []⟩]
    ∃ found map, ofDocument text = .ok found ∧ ObservationMap.reader.run text = .ok map ∧
      (build steps).IsOf (given steps) ∧ Alike found ⟨"case", "SUM(GDP)", map, .scalar 3, none⟩ "gdP" := by
  intro text steps
  have hread : (ObservationMap.reader.run text).map (·.toList) =
      .ok [("GDP", [⟨"2020-01-01", some 1⟩]), ("Gdp", []), ("gdp", [⟨"2020-01-01", some 3⟩])] := by decide +kernel
  obtain ⟨map, hmap, hlist⟩ := map_eq_ok_iff.1 hread
  have hvalid : ∀ entry ∈ map.toList, (Series.mk (Text.lower entry.1) entry.2).validate = .ok () := by
    rw [hlist]
    decide +kernel
  have hfound := ofDocument_eq_ok_iff.2 ⟨map, hmap, hvalid, rfl⟩
  exact ⟨_, map, hfound, hmap, resolves_alike.1 steps, resolves_alike.2 text _ _ hfound hmap "gdP"⟩

end Context

end SeriesFormula
