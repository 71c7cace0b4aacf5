import RedisS2Geo.Source.Module
import RedisS2Geo.Store.Contents

/-!
# What each command does to an arbitrary keyspace

The handlers behind their checks. A command first validates its names, then the
marker of the index; `IndexExists` and `IndexAbsent` are the two verdicts that let
it go on. Nothing is assumed of the other keys.
-/

namespace RedisS2Geo.Store
open Foundation Source Covering

/-- An index that `IGET` confirms: an accepted name with the marker at its meta key. -/
structure IndexExists (K : Keyspace Bytes) (indexName : Bytes) : Prop where
  accepted : Accepted indexName
  marker : markerStatus (K (createIndexMetaHashKey indexName)) = .ok ()

/-- An index that `IGET` denies: an accepted name without a marker field. -/
structure IndexAbsent (K : Keyspace Bytes) (indexName : Bytes) : Prop where
  accepted : Accepted indexName
  marker : markerStatus (K (createIndexMetaHashKey indexName)) = .error .noSuchIndex

/-- An accepted name with a value at its meta key that the module did not write. -/
structure IndexForeign (K : Keyspace Bytes) (indexName : Bytes) : Prop where
  accepted : Accepted indexName
  marker : markerStatus (K (createIndexMetaHashKey indexName)) = .error .invalidIndex

section
variable {env : Environment} {K : Keyspace Bytes} {indexName polygonName body : Bytes}

/-- There is no other verdict on the marker. -/
theorem index_cases (K : Keyspace Bytes) (hi : Accepted indexName) :
    IndexExists K indexName ∨ IndexAbsent K indexName ∨ IndexForeign K indexName := by
  cases h : markerStatus (K (createIndexMetaHashKey indexName)) with
  | ok _ => exact Or.inl ⟨hi, h⟩
  | error e =>
      rcases markerStatus_error h with rfl | rfl
      · exact Or.inr (Or.inl ⟨hi, h⟩)
      · exact Or.inr (Or.inr ⟨hi, h⟩)

theorem IndexExists.validateEntityName_eq (h : IndexExists K indexName) :
    validateEntityName indexName = .ok () := h.accepted

theorem IndexAbsent.validateEntityName_eq (h : IndexAbsent K indexName) :
    validateEntityName indexName = .ok () := h.accepted

theorem IndexExists.validateIndex_eq (h : IndexExists K indexName) :
    validateIndex indexName K = some (.ok (), K) := by
  rw [Store.validateIndex_eq, h.marker]

theorem IndexAbsent.validateIndex_eq (h : IndexAbsent K indexName) :
    validateIndex indexName K = some (.error .noSuchIndex, K) := by
  rw [Store.validateIndex_eq, h.marker]

theorem IndexForeign.validateEntityName_eq (h : IndexForeign K indexName) :
    validateEntityName indexName = .ok () := h.accepted

theorem IndexForeign.validateIndex_eq (h : IndexForeign K indexName) :
    validateIndex indexName K = some (.error .invalidIndex, K) := by
  rw [Store.validateIndex_eq, h.marker]

/-! ### Commands on the index -/

theorem setIndexCommand_exists (h : IndexExists K indexName) :
    setIndexCommand [indexName] K = some (replyWithError "index already exists", K) := by
  simp [setIndexCommand, h.validateEntityName_eq, h.validateIndex_eq]

theorem setIndexCommand_absent (h : IndexAbsent K indexName) :
    setIndexCommand [indexName] K = some (replyWithSimpleString "OK", withMarker K indexName) := by
  simp [setIndexCommand, h.validateEntityName_eq, h.validateIndex_eq, createIndex_eq]

/-- The index exists once its marker is written. -/
theorem IndexAbsent.withMarker (h : IndexAbsent K indexName) :
    IndexExists (withMarker K indexName) indexName where
  accepted := h.accepted
  marker := by
    have hmarker : cString indexParamsValue = indexParamsValue := by decide
    have hm := h.marker
    rw [Store.withMarker, Function.update_self]
    cases hv : asHash (K (createIndexMetaHashKey indexName)) with
    | none => simp [markerStatus, hv] at hm
    | some fields => simp [markerStatus, asHash_eq_some_iff.mp hv, hmarker]

theorem getIndexCommand_exists (h : IndexExists K indexName) :
    getIndexCommand [indexName] K = some (replyWithSimpleString "OK", K) := by
  simp [getIndexCommand, h.validateEntityName_eq, h.validateIndex_eq]

theorem getIndexCommand_absent (h : IndexAbsent K indexName) :
    getIndexCommand [indexName] K = some (replyWithNull, K) := by
  simp [getIndexCommand, h.validateEntityName_eq, h.validateIndex_eq]

theorem deleteIndexCommand_absent (ω : Orders) (h : IndexAbsent K indexName) :
    deleteIndexCommand ω [indexName] K = some (replyWithLongLong 0, K) := by
  simp [deleteIndexCommand, h.validateEntityName_eq, h.validateIndex_eq]

/-! ### Storing a polygon -/

theorem setPolygonCommand_absent (ω : Orders) (h : IndexAbsent K indexName)
    (hp : Accepted polygonName) :
    setPolygonCommand env ω [indexName, polygonName, body] K =
      some (replyWithError "invalid index", K) := by
  have hp' : validateEntityName polygonName = .ok () := hp
  simp [setPolygonCommand, h.validateEntityName_eq, h.validateIndex_eq, hp']

/-- A body without terms is refused, whether it does not parse or covers nothing. -/
theorem setPolygonCommand_refused (ω : Orders) (hp : Accepted polygonName)
    (hb : bodyTerms env body = ∅) :
    ∃ text ∈ ["invalid polygon", "empty cell union for a given polygon"],
      ∀ K, IndexExists K indexName →
        setPolygonCommand env ω [indexName, polygonName, body] K =
          some (replyWithError text, K) := by
  have hp' : validateEntityName polygonName = .ok () := hp
  cases hparse : parsePolygon env body with
  | none =>
      refine ⟨"invalid polygon", by simp, fun K h => ?_⟩
      simp [setPolygonCommand, h.validateEntityName_eq, h.validateIndex_eq, hp', hparse]
  | some polygon =>
      rw [bodyTerms, hparse] at hb
      refine ⟨"empty cell union for a given polygon", by simp, fun K h => ?_⟩
      simp [setPolygonCommand, h.validateEntityName_eq, h.validateIndex_eq, hp', hparse, hb]

/-- An accepted body goes through the three writing calls, unless the cell info has
another type and brings the server down. -/
theorem setPolygonCommand_stored (ω : Orders) (h : IndexExists K indexName)
    (hp : Accepted polygonName) (hb : bodyTerms env body ≠ ∅) :
    setPolygonCommand env ω [indexName, polygonName, body] K =
      (asSet (K (createPolygonCellInfoSetKey indexName polygonName))).map fun old =>
        (replyWithLongLong 1,
          withPolygon K indexName polygonName body old (bodyTerms env body)) := by
  have hp' : validateEntityName polygonName = .ok () := hp
  obtain ⟨polygon, hparse⟩ := exists_parsed (bodyTerms_eq_empty_iff.not.mp hb)
  rw [bodyTerms, hparse] at hb ⊢
  have hcellinfo : withBody K indexName polygonName body
      (createPolygonCellInfoSetKey indexName polygonName) =
      K (createPolygonCellInfoSetKey indexName polygonName) :=
    withBody_of_ne K indexName polygonName body (k := .cellinfo _ _) rfl (by simp)
  cases hold : asSet (K (createPolygonCellInfoSetKey indexName polygonName)) with
  | none =>
      have hdel := deletePolygonCells_wrongType ω (hcellinfo ▸ hold)
      simp [setPolygonCommand, h.validateEntityName_eq, h.validateIndex_eq, hp', hparse, hb,
        setPolygonBody_eq, hdel]
  | some old =>
      have hdel := deletePolygonCells_eq ω (hcellinfo ▸ hold)
      by_cases ho : old = ∅
      · simp [setPolygonCommand, h.validateEntityName_eq, h.validateIndex_eq, hp', hparse, hb,
          setPolygonBody_eq, hdel, ho, setPolygonCells_eq, withPolygon]
      · simp [setPolygonCommand, h.validateEntityName_eq, h.validateIndex_eq, hp', hparse, hb,
          setPolygonBody_eq, hdel, ho, setPolygonCells_eq, withPolygon]

/-! ### Reading bodies -/

theorem getPolygonCommand_absent (h : IndexAbsent K indexName) (hp : Accepted polygonName) :
    getPolygonCommand [indexName, polygonName] K = some (replyWithNull, K) := by
  have hp' : validateEntityName polygonName = .ok () := hp
  simp [getPolygonCommand, h.validateEntityName_eq, h.validateIndex_eq, hp']

theorem getPolygonCommand_exists (h : IndexExists K indexName) (hp : Accepted polygonName) :
    getPolygonCommand [indexName, polygonName] K =
      some ((bodyAt K indexName polygonName).elim replyWithNull replyWithString, K) := by
  have hp' : validateEntityName polygonName = .ok () := hp
  cases hb : bodyAt K indexName polygonName <;>
    simp [getPolygonCommand, h.validateEntityName_eq, h.validateIndex_eq, hp',
      getPolygonBody_eq, hb]

/-- The loop over the polygon names finds none to refuse. -/
theorem not_refused {rest : List Bytes} (h : ∀ p ∈ polygonName :: rest, Accepted p) :
    ¬ (¬ validateEntityName polygonName = .ok () ∨
      ∃ p ∈ rest, ¬ validateEntityName p = .ok ()) := by
  simpa [Accepted] using h

theorem getMultiplePolygonsCommand_absent {names : List Bytes} (h : IndexAbsent K indexName)
    (hne : names ≠ []) (hp : ∀ p ∈ names, Accepted p) :
    getMultiplePolygonsCommand (indexName :: names) K =
      some (replyWithArray (names.map fun _ => none), K) := by
  obtain ⟨p, rest, rfl⟩ := List.exists_cons_of_ne_nil hne
  simp [getMultiplePolygonsCommand, h.validateEntityName_eq, h.validateIndex_eq,
    not_refused hp]

theorem getMultiplePolygonsCommand_exists {names : List Bytes} {fields : Polygons}
    (h : IndexExists K indexName) (hne : names ≠ []) (hp : ∀ p ∈ names, Accepted p)
    (hf : asHash (K (createIndexPolygonsHashKey indexName)) = some fields) :
    getMultiplePolygonsCommand (indexName :: names) K =
      some (replyWithArray (names.map fun p => fields.lookup p), K) := by
  obtain ⟨p, rest, rfl⟩ := List.exists_cons_of_ne_nil hne
  simp [getMultiplePolygonsCommand, h.validateEntityName_eq, h.validateIndex_eq,
    not_refused hp, getPolygonBodies_eq _ hf, replyWithCallReply, replyWithArray]

theorem listPolygonsCommand_absent (ω : Orders) (h : IndexAbsent K indexName) :
    listPolygonsCommand ω [indexName] K = some (replyWithArray [], K) := by
  simp [listPolygonsCommand, h.validateEntityName_eq, h.validateIndex_eq]

theorem listPolygonsCommand_exists {fields : Polygons} (ω : Orders)
    (h : IndexExists K indexName)
    (hf : asHash (K (createIndexPolygonsHashKey indexName)) = some fields) :
    listPolygonsCommand ω [indexName] K =
      some (replyWithArray ((ω.hkeys.list fields.keys).map some), K) := by
  simp [listPolygonsCommand, h.validateEntityName_eq, h.validateIndex_eq,
    listPolygons_eq ω hf, replyWithCallReply, replyWithArray]

/-! ### Deleting a polygon -/

theorem deletePolygonCommand_absent (ω : Orders) (h : IndexAbsent K indexName)
    (hp : Accepted polygonName) :
    deletePolygonCommand ω [indexName, polygonName] K = some (replyWithLongLong 0, K) := by
  have hp' : validateEntityName polygonName = .ok () := hp
  simp [deletePolygonCommand, h.validateEntityName_eq, h.validateIndex_eq, hp']

/-- The body is deleted first; the reply depends on the cell info alone. -/
theorem deletePolygonCommand_exists (ω : Orders) (h : IndexExists K indexName)
    (hp : Accepted polygonName) :
    deletePolygonCommand ω [indexName, polygonName] K =
      (asSet (K (createPolygonCellInfoSetKey indexName polygonName))).map fun old =>
        if old = ∅ then (replyWithLongLong 0, withoutBody K indexName polygonName)
        else (replyWithLongLong 1,
          withoutCells (withoutBody K indexName polygonName) indexName polygonName old) := by
  have hp' : validateEntityName polygonName = .ok () := hp
  have hcellinfo : withoutBody K indexName polygonName
      (createPolygonCellInfoSetKey indexName polygonName) =
      K (createPolygonCellInfoSetKey indexName polygonName) :=
    withoutBody_of_ne K indexName polygonName (k := .cellinfo _ _) rfl (by simp)
  cases hold : asSet (K (createPolygonCellInfoSetKey indexName polygonName)) with
  | none =>
      have hdel := deletePolygonCells_wrongType ω (hcellinfo ▸ hold)
      simp [deletePolygonCommand, h.validateEntityName_eq, h.validateIndex_eq, hp',
        deletePolygonBody_eq, hdel]
  | some old =>
      have hdel := deletePolygonCells_eq ω (hcellinfo ▸ hold)
      by_cases ho : old = ∅ <;>
        simp [deletePolygonCommand, h.validateEntityName_eq, h.validateIndex_eq, hp',
          deletePolygonBody_eq, hdel, ho]

/-! ### Searching -/

/-- The reply is an array with the name in it. -/
def Lists (o : Outcome) (p : Bytes) : Prop := ∃ items, o.reply = .array items ∧ some p ∈ items

theorem lists_map_some {names : List Bytes} {p : Bytes} :
    Lists (replyWithArray (names.map some)) p ↔ p ∈ names := by
  simp [Lists, replyWithArray]

theorem not_lists_replyWithError {text : String} {p : Bytes} :
    ¬ Lists (replyWithError text) p := by
  simp [Lists, replyWithError]

/-- The sets that a search reads, one for each term. -/
def cellKeys (ω : Orders) (indexName : Bytes) (terms : Finset Bytes) : List Bytes :=
  (ω.unorderedSet.list terms).map (createIndexCellsSetKeyCStr indexName)

theorem searchPolygonCommand_absent (ω : Orders) (h : IndexAbsent K indexName) :
    searchPolygonCommand env ω [indexName, body] K =
      some (replyWithError "invalid index", K) := by
  simp [searchPolygonCommand, h.validateEntityName_eq, h.validateIndex_eq]

theorem searchPolygonCommand_unparsed (ω : Orders) (h : IndexExists K indexName)
    (hb : parsePolygon env body = none) :
    searchPolygonCommand env ω [indexName, body] K =
      some (replyWithError "invalid polygon", K) := by
  simp [searchPolygonCommand, h.validateEntityName_eq, h.validateIndex_eq, hb]

theorem searchPolygonCommand_uncovered {polygon : S2Polygon env.Point} (ω : Orders)
    (h : IndexExists K indexName) (hb : parsePolygon env body = some polygon)
    (hc : indexPolygonForOverlapTest env (some polygon) = ∅) :
    searchPolygonCommand env ω [indexName, body] K =
      some (replyWithError "empty cell union for a given polygon", K) := by
  simp [searchPolygonCommand, h.validateEntityName_eq, h.validateIndex_eq, hb, hc]

theorem searchPolygonCommand_found {polygon : S2Polygon env.Point} {s : Finset Bytes}
    (ω : Orders) (h : IndexExists K indexName) (hb : parsePolygon env body = some polygon)
    (hc : indexPolygonForOverlapTest env (some polygon) ≠ ∅)
    (hs : unionAt K (cellKeys ω indexName (indexPolygonForOverlapTest env (some polygon))) =
      some s) :
    searchPolygonCommand env ω [indexName, body] K =
      some (replyWithArray ((ω.sunion.list s).map some), K) := by
  simp [searchPolygonCommand, h.validateEntityName_eq, h.validateIndex_eq, hb, hc,
    getPolygonsInCells_eq ω hs, replyWithCallReply, replyWithArray]

theorem searchPolygonCommand_wrongType {polygon : S2Polygon env.Point} (ω : Orders)
    (h : IndexExists K indexName) (hb : parsePolygon env body = some polygon)
    (hc : indexPolygonForOverlapTest env (some polygon) ≠ ∅)
    (hs : unionAt K (cellKeys ω indexName (indexPolygonForOverlapTest env (some polygon))) =
      none) :
    searchPolygonCommand env ω [indexName, body] K =
      some (replyWithError "error while fetching polygons", K) := by
  simp [searchPolygonCommand, h.validateEntityName_eq, h.validateIndex_eq, hb, hc,
    getPolygonsInCells_wrongType ω hs]

theorem searchPointCommand_absent (ω : Orders) (h : IndexAbsent K indexName) :
    searchPointCommand env ω [indexName, body] K = some (replyWithError "invalid index", K) := by
  simp [searchPointCommand, h.validateEntityName_eq, h.validateIndex_eq]

theorem searchPointCommand_unparsed (ω : Orders) (h : IndexExists K indexName)
    (hb : parseLatLng env body = none) :
    searchPointCommand env ω [indexName, body] K = some (replyWithError "invalid point", K) := by
  simp [searchPointCommand, h.validateEntityName_eq, h.validateIndex_eq, hb]

theorem searchPointCommand_found {point : env.LatLng} {s : Finset Bytes} (ω : Orders)
    (h : IndexExists K indexName) (hb : parseLatLng env body = some point)
    (hs : unionAt K (cellKeys ω indexName (indexPoint env (some point))) = some s) :
    searchPointCommand env ω [indexName, body] K =
      some (replyWithArray ((ω.sunion.list s).map some), K) := by
  simp [searchPointCommand, h.validateEntityName_eq, h.validateIndex_eq, hb,
    indexPoint_ne_empty point, getPolygonsInCells_eq ω hs, replyWithCallReply, replyWithArray]

theorem searchPointCommand_wrongType {point : env.LatLng} (ω : Orders)
    (h : IndexExists K indexName) (hb : parseLatLng env body = some point)
    (hs : unionAt K (cellKeys ω indexName (indexPoint env (some point))) = none) :
    searchPointCommand env ω [indexName, body] K =
      some (replyWithError "error while fetching polygons", K) := by
  simp [searchPointCommand, h.validateEntityName_eq, h.validateIndex_eq, hb,
    indexPoint_ne_empty point, getPolygonsInCells_wrongType ω hs]

/-! ### Arguments that are refused -/

/-- The arguments of a command that are names; the remaining ones are bodies. -/
def names (c : Command) : List Bytes :=
  match c.name with
  | .iset | .iget | .idel | .polylist | .polysearch | .pointsearch => c.args.take 1
  | .polyset | .polyget | .polydel => c.args.take 2
  | .polymget => c.args

/-- A command with the right number of arguments. -/
inductive Shaped : Command → Prop
  | iset (i : Bytes) : Shaped ⟨.iset, [i]⟩
  | iget (i : Bytes) : Shaped ⟨.iget, [i]⟩
  | idel (i : Bytes) : Shaped ⟨.idel, [i]⟩
  | polyset (i p b : Bytes) : Shaped ⟨.polyset, [i, p, b]⟩
  | polyget (i p : Bytes) : Shaped ⟨.polyget, [i, p]⟩
  | polymget (i p : Bytes) (rest : List Bytes) : Shaped ⟨.polymget, i :: p :: rest⟩
  | polydel (i p : Bytes) : Shaped ⟨.polydel, [i, p]⟩
  | polylist (i : Bytes) : Shaped ⟨.polylist, [i]⟩
  | polysearch (i b : Bytes) : Shaped ⟨.polysearch, [i, b]⟩
  | pointsearch (i b : Bytes) : Shaped ⟨.pointsearch, [i, b]⟩

theorem exec_wrongArity {c : Command} (ω : Orders) (h : ¬ Shaped c) :
    exec env ω c K = some (wrongArity, K) := by
  obtain ⟨name, args⟩ := c
  rcases args with _ | ⟨a, _ | ⟨b, _ | ⟨d, _ | ⟨e, rest⟩⟩⟩⟩ <;> cases name <;>
    first
    | rfl
    | exact absurd (by constructor) h

theorem exec_indexName_refused {c : Command} (ω : Orders) (hs : Shaped c) {i : Bytes}
    (hi : c.args.head? = some i) (hn : ¬ Accepted i) :
    exec env ω c K = some (replyWithError "invalid index name", K) := by
  have hv := validateEntityName_error hn
  cases hs <;> obtain rfl := Option.some.inj hi <;>
    simp [exec, setIndexCommand, getIndexCommand, deleteIndexCommand, setPolygonCommand,
      getPolygonCommand, getMultiplePolygonsCommand, deletePolygonCommand, listPolygonsCommand,
      searchPolygonCommand, searchPointCommand, hv]

theorem exec_polygonName_refused {c : Command} (ω : Orders) (hs : Shaped c) {i : Bytes}
    (hi : c.args.head? = some i) (hacc : Accepted i) (hn : ∃ n ∈ names c, ¬ Accepted n) :
    exec env ω c K = some (replyWithError "invalid polygon name", K) := by
  have hv : validateEntityName i = .ok () := hacc
  obtain ⟨n, hmem, hbad⟩ := hn
  have hne : n ≠ i := by
    rintro rfl
    exact hbad hacc
  cases hs with
  | polyset _ p b =>
      obtain rfl := Option.some.inj hi
      obtain rfl : n = p := by simpa [names, hne] using hmem
      simp [exec, setPolygonCommand, hv, validateEntityName_error hbad]
  | polyget _ p =>
      obtain rfl := Option.some.inj hi
      obtain rfl : n = p := by simpa [names, hne] using hmem
      simp [exec, getPolygonCommand, hv, validateEntityName_error hbad]
  | polydel _ p =>
      obtain rfl := Option.some.inj hi
      obtain rfl : n = p := by simpa [names, hne] using hmem
      simp [exec, deletePolygonCommand, hv, validateEntityName_error hbad]
  | polymget _ p rest =>
      obtain rfl := Option.some.inj hi
      have hany : ¬ validateEntityName p = .ok () ∨
          ∃ q ∈ rest, ¬ validateEntityName q = .ok () := by
        rcases (by simpa [names, hne] using hmem : n = p ∨ n ∈ rest) with rfl | hr
        · exact Or.inl hbad
        · exact Or.inr ⟨n, hr, hbad⟩
      simp [exec, getMultiplePolygonsCommand, hv, hany]
  | _ =>
      obtain rfl := Option.some.inj hi
      exact absurd (by simpa [names] using hmem) hne

/-- A well-shaped command with a bad name is refused before it reads the keyspace. -/
theorem exec_refused (env : Environment) (K : Keyspace Bytes) {c : Command} (ω : Orders)
    (hs : Shaped c) (hn : ∃ n ∈ names c, ¬ Accepted n) :
    ∃ text, exec env ω c K = some (replyWithError text, K) ∧
      (text = "invalid index name" ∨ text = "invalid polygon name") := by
  obtain ⟨i, hi⟩ : ∃ i, c.args.head? = some i := by cases hs <;> exact ⟨_, rfl⟩
  by_cases hacc : Accepted i
  · exact ⟨_, exec_polygonName_refused ω hs hi hacc hn, Or.inr rfl⟩
  · exact ⟨_, exec_indexName_refused ω hs hi hacc, Or.inl rfl⟩

/-- A foreign value at the meta key is an error for every command, on each keyspace the
same one. -/
theorem exec_foreign (env : Environment) {c : Command} (ω : Orders) (hs : Shaped c)
    (hname : ∀ n ∈ names c, Accepted n) {i : Bytes} (hi : c.args.head? = some i) :
    ∃ text, ∀ K, IndexForeign K i → exec env ω c K = some (replyWithError text, K) := by
  cases hs <;> obtain rfl := Option.some.inj hi
  case polyset p b =>
    have hp : validateEntityName p = .ok () := hname p (by simp [names])
    exact ⟨"invalid index", fun K hx => by
      simp [exec, setPolygonCommand, hx.validateEntityName_eq, hx.validateIndex_eq, hp]⟩
  case polyget p =>
    have hp : validateEntityName p = .ok () := hname p (by simp [names])
    exact ⟨"invalid index", fun K hx => by
      simp [exec, getPolygonCommand, hx.validateEntityName_eq, hx.validateIndex_eq, hp]⟩
  case polydel p =>
    have hp : validateEntityName p = .ok () := hname p (by simp [names])
    exact ⟨"invalid index", fun K hx => by
      simp [exec, deletePolygonCommand, hx.validateEntityName_eq, hx.validateIndex_eq, hp]⟩
  case polymget p rest =>
    have hp := not_refused fun q hq => hname q (List.mem_cons_of_mem _ hq)
    exact ⟨"invalid index", fun K hx => by
      simp [exec, getMultiplePolygonsCommand, hx.validateEntityName_eq, hx.validateIndex_eq, hp]⟩
  case iset =>
    exact ⟨"index already exists", fun K hx => by
      simp [exec, setIndexCommand, hx.validateEntityName_eq, hx.validateIndex_eq]⟩
  case iget =>
    exact ⟨"not an index", fun K hx => by
      simp [exec, getIndexCommand, hx.validateEntityName_eq, hx.validateIndex_eq]⟩
  case idel =>
    exact ⟨"not an index", fun K hx => by
      simp [exec, deleteIndexCommand, hx.validateEntityName_eq, hx.validateIndex_eq]⟩
  all_goals
    exact ⟨"invalid index", fun K hx => by
      simp [exec, listPolygonsCommand, searchPolygonCommand, searchPointCommand,
        hx.validateEntityName_eq, hx.validateIndex_eq]⟩

/-- A command has one outcome on a keyspace. -/
theorem exec_unique {c : Command} {ω : Orders} {o o' : Outcome} {K₁ K₂ : Keyspace Bytes}
    (h : exec env ω c K = some (o, K₁)) (h' : exec env ω c K = some (o', K₂)) :
    o = o' ∧ K₁ = K₂ := by
  simpa using h.symm.trans h'

/-- The names that an array reply lists. -/
theorem exec_lists_iff {c : Command} {ω : Orders} {K₁ : Keyspace Bytes} {items : List Bytes}
    {p : Bytes} (h : exec env ω c K = some (replyWithArray (items.map some), K₁)) :
    (∃ o K', exec env ω c K = some (o, K') ∧ Lists o p) ↔ p ∈ items := by
  constructor
  · rintro ⟨o, K', he, hl⟩
    obtain ⟨rfl, -⟩ := exec_unique he h
    exact lists_map_some.mp hl
  · intro hp
    exact ⟨_, _, h, lists_map_some.mpr hp⟩

/-- A command that answers with an error lists nothing. -/
theorem not_lists_of_error {c : Command} {ω : Orders} {o : Outcome} {K₁ K₂ : Keyspace Bytes}
    {text : String} {p : Bytes} (he : exec env ω c K = some (o, K₁))
    (h : exec env ω c K = some (replyWithError text, K₂)) : ¬ Lists o p := by
  obtain ⟨rfl, -⟩ := exec_unique he h
  exact not_lists_replyWithError

end

end RedisS2Geo.Store
