import RedisS2Geo.Store.Commands
import RedisS2Geo.Store.Updates

/-!
# Commands on a keyspace that stands for contents

Each command reads its reply off the contents and leads to the keyspace that
stands for the changed contents.
-/

namespace RedisS2Geo.Store
open Foundation Source Covering

variable {env : Environment} {K : Keyspace Bytes} {A : Contents}
variable {indexName polygonName body : Bytes} {m : Polygons}

namespace Represents

/-! ### The index and its bodies -/

theorem indexExists (h : Represents env K A) (hi : Accepted indexName)
    (hA : A (cString indexName) = some m) : IndexExists K indexName :=
  ⟨hi, by rw [h.markerStatus_eq hi.notMem, hA]; rfl⟩

theorem indexAbsent (h : Represents env K A) (hi : Accepted indexName)
    (hA : A (cString indexName) = none) : IndexAbsent K indexName :=
  ⟨hi, by rw [h.markerStatus_eq hi.notMem, hA]; rfl⟩

/-- The marker shows that the contents have the index. -/
theorem exists_polygons (h : Represents env K A) (hx : IndexExists K indexName) :
    ∃ m, A (cString indexName) = some m := by
  cases hA : A (cString indexName) with
  | some m => exact ⟨m, rfl⟩
  | none =>
      have hmarker := hx.marker
      rw [(h.indexAbsent hx.accepted hA).marker] at hmarker
      cases hmarker

theorem bodyAt_eq (h : Represents env K A) (hi : entityDelim ∉ cString indexName)
    (polygonName : Bytes) :
    bodyAt K indexName polygonName = (A.polygons (cString indexName)).lookup polygonName := by
  simp [bodyAt, h.asHash_polygons hi]

/-! ### Storing and deleting a polygon -/

/-- `DeletePolygonCells` may be skipped when there are no old terms. -/
theorem withoutCells_of_eq_empty {K' : Keyspace Bytes} (h : Represents env K A)
    (hA : A (cString indexName) = some m) (hp : PlainName polygonName)
    (hK' : K' (createPolygonCellInfoSetKey indexName polygonName) =
      K (createPolygonCellInfoSetKey indexName polygonName))
    (hold : termsOf env m polygonName = ∅) :
    withoutCells K' indexName polygonName ∅ = K' := by
  have hval := asSet_eq_some_iff.mp (h.asSet_cellinfo (h.wellFormed.name hA).notMem polygonName)
  rw [hp.cString_eq, Contents.polygons_of_some hA, hold, ofSet_empty, ← hK'] at hval
  rw [withoutCells, Finset.image_empty, dropFromSets_empty, ← hval, Function.update_eq_self]

theorem asSet_cellinfo_of_some (h : Represents env K A) (hA : A (cString indexName) = some m)
    (polygonName : Bytes) :
    asSet (K (createPolygonCellInfoSetKey indexName polygonName)) =
      some (termsOf env m (cString polygonName)) := by
  rw [h.asSet_cellinfo (h.wellFormed.name hA).notMem, Contents.polygons_of_some hA]

/-- An accepted body of a plainly named polygon is stored. -/
theorem setPolygonCommand_plain (h : Represents env K A) (ω : Orders) (hi : Accepted indexName)
    (hA : A (cString indexName) = some m) (hp : PlainName polygonName)
    (hb : bodyTerms env body ≠ ∅) :
    ∃ K', setPolygonCommand env ω [indexName, polygonName, body] K =
        some (replyWithLongLong 1, K') ∧
      Represents env K'
        (Function.update A (cString indexName) (some (m.insert polygonName body))) := by
  refine ⟨_, ?_, h.put hA hp hb⟩
  rw [setPolygonCommand_stored ω (h.indexExists hi hA) hp.1 hb, h.asSet_cellinfo_of_some hA,
    hp.cString_eq, Option.map_some, withPolygon]
  split
  · rename_i hold
    have hcellinfo := withBody_of_ne K indexName polygonName body
      (k := .cellinfo (cString indexName) (cString polygonName)) rfl (by simp)
    rw [hold, h.withoutCells_of_eq_empty hA hp hcellinfo hold]
  · rfl

/-- A body is accepted under every accepted name, also one with zero bytes. -/
theorem setPolygonCommand_replies (h : Represents env K A) (ω : Orders)
    (hi : Accepted indexName) (hA : A (cString indexName) = some m)
    (hp : Accepted polygonName) (hb : bodyTerms env body ≠ ∅) :
    ∃ K', setPolygonCommand env ω [indexName, polygonName, body] K =
      some (replyWithLongLong 1, K') := by
  rw [setPolygonCommand_stored ω (h.indexExists hi hA) hp hb, h.asSet_cellinfo_of_some hA]
  exact ⟨_, rfl⟩

/-- Deleting a polygon with a body. -/
theorem deletePolygonCommand_mem (h : Represents env K A) (ω : Orders)
    (hi : Accepted indexName) (hA : A (cString indexName) = some m) (hp : polygonName ∈ m) :
    ∃ K', deletePolygonCommand ω [indexName, polygonName] K =
        some (replyWithLongLong 1, K') ∧
      Represents env K'
        (Function.update A (cString indexName) (some (m.erase polygonName))) := by
  have hname : PlainName polygonName := (h.wellFormed.polygons hA).name hp
  have hterms : termsOf env m polygonName ≠ ∅ :=
    (h.wellFormed.polygons hA).termsOf_ne_empty hp
  refine ⟨_, ?_, h.remove hA hname⟩
  rw [deletePolygonCommand_exists ω (h.indexExists hi hA) hname.1, h.asSet_cellinfo_of_some hA,
    hname.cString_eq, Option.map_some, if_neg hterms]

/-- Deleting a polygon without a body, when no stored name has the same C string. -/
theorem deletePolygonCommand_notMem (h : Represents env K A) (ω : Orders)
    (hi : Accepted indexName) (hA : A (cString indexName) = some m)
    (hp : Accepted polygonName) (hmem : cString polygonName ∉ m) :
    deletePolygonCommand ω [indexName, polygonName] K = some (replyWithLongLong 0, K) := by
  have hterms : termsOf env m (cString polygonName) = ∅ := termsOf_of_notMem hmem
  -- a stored name is its own C string
  have habsent : polygonName ∉ A.polygons (cString indexName) := by
    rw [Contents.polygons_of_some hA]
    intro hp'
    rw [((h.wellFormed.polygons hA).name hp').cString_eq] at hmem
    exact hmem hp'
  rw [deletePolygonCommand_exists ω (h.indexExists hi hA) hp, h.asSet_cellinfo_of_some hA,
    Option.map_some, if_pos hterms, h.withoutBody_absent hi.notMem habsent]

/-- A name with zero bytes may stand for the cell info of another polygon. -/
theorem deletePolygonCommand_alias (h : Represents env K A) (ω : Orders)
    (hi : Accepted indexName) (hA : A (cString indexName) = some m)
    (hp : Accepted polygonName) (hmem : cString polygonName ∈ m) :
    ∃ K', deletePolygonCommand ω [indexName, polygonName] K =
      some (replyWithLongLong 1, K') := by
  have hterms : termsOf env m (cString polygonName) ≠ ∅ :=
    (h.wellFormed.polygons hA).termsOf_ne_empty hmem
  rw [deletePolygonCommand_exists ω (h.indexExists hi hA) hp, h.asSet_cellinfo_of_some hA,
    Option.map_some, if_neg hterms]
  exact ⟨_, rfl⟩

/-! ### Deleting an index -/

/-- One round of the loop of `DeleteIndex` takes one polygon away. -/
theorem deletePolygon_round (h : Represents env K A) (ω : Orders)
    (hA : A (cString indexName) = some m) (hp : polygonName ∈ m) :
    ∃ K', deletePolygonBody indexName polygonName K =
        some (.ok (), withoutBody K indexName polygonName) ∧
      deletePolygonCells ω indexName polygonName (withoutBody K indexName polygonName) =
        some (.ok (), K') ∧
      Represents env K'
        (Function.update A (cString indexName) (some (m.erase polygonName))) := by
  have hname : PlainName polygonName := (h.wellFormed.polygons hA).name hp
  have hterms : termsOf env m polygonName ≠ ∅ :=
    (h.wellFormed.polygons hA).termsOf_ne_empty hp
  have hcells : asSet (withoutBody K indexName polygonName
      (createPolygonCellInfoSetKey indexName polygonName)) = some (termsOf env m polygonName) := by
    rw [createPolygonCellInfoSetKey_eq, withoutBody_of_ne K indexName polygonName rfl (by simp),
      ← createPolygonCellInfoSetKey_eq, h.asSet_cellinfo_of_some hA, hname.cString_eq]
  refine ⟨_, deletePolygonBody_eq _ _ _, ?_, h.remove hA hname⟩
  rw [deletePolygonCells_eq ω hcells, if_neg hterms]

/-- The loop of `DeleteIndex` over the indices of the listing empties the index. -/
theorem deletePolygons_eq (h : Represents env K A) (ω : Orders) (pre rest : List Bytes)
    (hA : A (cString indexName) = some m) (hnodup : rest.Nodup)
    (hmem : ∀ p, p ∈ rest ↔ p ∈ m) :
    ∃ K', deletePolygons ω indexName (.array ((pre ++ rest).map some))
        (List.range' pre.length rest.length) K = some (.ok (), K') ∧
      Represents env K' (Function.update A (cString indexName) (some ∅)) := by
  induction rest generalizing pre m K A with
  | nil =>
      have hm : m = ∅ := Finmap.ext_lookup fun p => by
        rw [Finmap.lookup_eq_none.mpr ((hmem p).not.mp (List.not_mem_nil)), Finmap.lookup_empty]
      subst hm
      refine ⟨K, by simp [deletePolygons], ?_⟩
      rw [← hA, Function.update_eq_self]
      exact h
  | cons p rest ih =>
      obtain ⟨hp, hrest⟩ := List.nodup_cons.mp hnodup
      obtain ⟨K₁, hbody, hcells, h₁⟩ := h.deletePolygon_round ω hA ((hmem p).mp (by simp))
      obtain ⟨K', hloop, h'⟩ := ih h₁ (pre ++ [p]) (Function.update_self _ _ _) hrest fun q => by
        rw [Finmap.mem_erase, ← hmem q, List.mem_cons]
        constructor
        · intro hq
          exact ⟨fun he => hp (he ▸ hq), Or.inr hq⟩
        · rintro ⟨hne, hq⟩
          exact hq.resolve_left hne
      refine ⟨K', ?_, by simpa using h'⟩
      simp only [List.append_assoc, List.singleton_append, List.length_append,
        List.length_singleton] at hloop
      simp [deletePolygons, List.range'_succ, stringFromArrayElement, hbody, hcells, hloop,
        -List.map_append]

/-- `DeleteIndex` reaches its last call whatever order the names are listed in. -/
theorem deleteIndexCommand_exists (h : Represents env K A) (ω : Orders)
    (hi : Accepted indexName) (hA : A (cString indexName) = some m) :
    ∃ K', deleteIndexCommand ω [indexName] K = some (replyWithLongLong 1, K') ∧
      Represents env K' (Function.update A (cString indexName) none) := by
  have hx := h.indexExists hi hA
  have hhash := h.asHash_polygons hi.notMem
  rw [Contents.polygons_of_some hA] at hhash
  obtain ⟨K', hloop, h'⟩ := h.deletePolygons_eq ω [] (ω.hkeys.list m.keys) hA
    (ω.hkeys.nodup _) fun p => by rw [Enumeration.mem_list, Finmap.mem_keys]
  simp only [List.nil_append, List.length_nil, ← List.range_eq_range'] at hloop
  have hempty := Function.update_self (cString indexName) (some (∅ : Polygons)) A
  have hdrop := h'.drop hempty
  rw [Function.update_idem] at hdrop
  refine ⟨_, ?_, hdrop⟩
  simp [deleteIndexCommand, hx.validateEntityName_eq, hx.validateIndex_eq, deleteIndex,
    listPolygons_eq ω hhash, callReplyLength, hloop, del]

/-! ### Searching -/

/-- The union over the cells of some terms holds the polygons with one of the terms. -/
theorem unionAt_cellKeys (h : Represents env K A) (ω : Orders)
    (hi : entityDelim ∉ cString indexName) (terms : Finset Bytes)
    (hnul : ∀ t ∈ terms, NulFree t) :
    ∃ s, unionAt K (cellKeys ω indexName terms) = some s ∧
      ∀ p, p ∈ s ↔ ∃ t ∈ termsOf env (A.polygons (cString indexName)) p, t ∈ terms := by
  have hset : ∀ t, asSet (K (createIndexCellsSetKeyCStr indexName t)) = some _ :=
    fun t => h.asSet_cells hi t
  obtain ⟨s, hs, hmem⟩ := unionAt_eq_some K (cellKeys ω indexName terms)
    fun key hkey => by
      obtain ⟨t, -, rfl⟩ := List.mem_map.mp hkey
      rw [hset]
      exact Option.some_ne_none _
  refine ⟨s, hs, fun p => (hmem p).trans ?_⟩
  constructor
  · rintro ⟨key, hkey, u, hu, hp⟩
    obtain ⟨t, ht, rfl⟩ := List.mem_map.mp hkey
    rw [hset, Option.some.injEq] at hu
    rw [Enumeration.mem_list] at ht
    rw [← hu, mem_filter_termsOf, cString_eq_self (hnul t ht)] at hp
    exact ⟨t, hp, ht⟩
  · rintro ⟨t, hp, ht⟩
    refine ⟨_, List.mem_map.mpr ⟨t, by rwa [Enumeration.mem_list], rfl⟩, _, hset t, ?_⟩
    rwa [mem_filter_termsOf, cString_eq_self (hnul t ht)]

/-- A polygon search returns the stored polygons that share a term with the query. -/
theorem searchPolygonCommand_eq {polygon : S2Polygon env.Point} (h : Represents env K A)
    (ω : Orders) (hi : Accepted indexName) (hA : A (cString indexName) = some m)
    (hb : parsePolygon env body = some polygon)
    (hc : getPolygonCovering env (some polygon) ≠ []) :
    ∃ s, searchPolygonCommand env ω [indexName, body] K =
        some (replyWithArray ((ω.sunion.list s).map some), K) ∧
      ∀ p, p ∈ s ↔ ∃ t ∈ termsOf env m p, t ∈ indexPolygonForOverlapTest env (some polygon) := by
  obtain ⟨s, hs, hmem⟩ := h.unionAt_cellKeys ω hi.notMem
    (indexPolygonForOverlapTest env (some polygon))
    fun _ => nulFree_of_mem_indexPolygonForOverlapTest
  rw [Contents.polygons_of_some hA] at hmem
  exact ⟨s, searchPolygonCommand_found ω (h.indexExists hi hA) hb
    (indexPolygonForOverlapTest_eq_empty_iff.not.mpr hc) hs, hmem⟩

/-- A point search returns the stored polygons that share a term with the point. -/
theorem searchPointCommand_eq {point : env.LatLng} (h : Represents env K A) (ω : Orders)
    (hi : Accepted indexName) (hA : A (cString indexName) = some m)
    (hb : parseLatLng env body = some point) :
    ∃ s, searchPointCommand env ω [indexName, body] K =
        some (replyWithArray ((ω.sunion.list s).map some), K) ∧
      ∀ p, p ∈ s ↔ ∃ t ∈ termsOf env m p, t ∈ indexPoint env (some point) := by
  obtain ⟨s, hs, hmem⟩ := h.unionAt_cellKeys ω hi.notMem
    (indexPoint env (some point)) fun _ => nulFree_of_mem_indexPoint
  rw [Contents.polygons_of_some hA] at hmem
  exact ⟨s, searchPointCommand_found ω (h.indexExists hi hA) hb hs, hmem⟩

/-- The errors of a search name its arguments; none comes from the keyspace. -/
theorem searchPolygonCommand_total (h : Represents env K A) (ω : Orders) (body : Bytes)
    (hi : Accepted indexName) :
    ∃ o, searchPolygonCommand env ω [indexName, body] K = some (o, K) ∧
      ∀ text, o.reply = .error text →
        text ∈ ["invalid index", "invalid polygon", "empty cell union for a given polygon"] := by
  cases hA : A (cString indexName) with
  | none =>
      exact ⟨_, searchPolygonCommand_absent ω (h.indexAbsent hi hA), by simp [replyWithError]⟩
  | some m =>
      have hx := h.indexExists hi hA
      cases hb : parsePolygon env body with
      | none => exact ⟨_, searchPolygonCommand_unparsed ω hx hb, by simp [replyWithError]⟩
      | some polygon =>
          by_cases hc : getPolygonCovering env (some polygon) = []
          · exact ⟨_, searchPolygonCommand_uncovered ω hx hb
              (indexPolygonForOverlapTest_eq_empty_iff.mpr hc), by simp [replyWithError]⟩
          · obtain ⟨s, hs, -⟩ := h.searchPolygonCommand_eq ω hi hA hb hc
            exact ⟨_, hs, by simp [replyWithArray]⟩

theorem searchPointCommand_total (h : Represents env K A) (ω : Orders) (body : Bytes)
    (hi : Accepted indexName) :
    ∃ o, searchPointCommand env ω [indexName, body] K = some (o, K) ∧
      ∀ text, o.reply = .error text → text ∈ ["invalid index", "invalid point"] := by
  cases hA : A (cString indexName) with
  | none =>
      exact ⟨_, searchPointCommand_absent ω (h.indexAbsent hi hA), by simp [replyWithError]⟩
  | some m =>
      cases hb : parseLatLng env body with
      | none =>
          exact ⟨_, searchPointCommand_unparsed ω (h.indexExists hi hA) hb,
            by simp [replyWithError]⟩
      | some point =>
          obtain ⟨s, hs, -⟩ := h.searchPointCommand_eq ω hi hA hb
          exact ⟨_, hs, by simp [replyWithArray]⟩

end Represents

end RedisS2Geo.Store
