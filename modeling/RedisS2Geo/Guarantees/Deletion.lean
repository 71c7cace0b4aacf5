import RedisS2Geo.Store.Runs

/-!
# What deletions leave behind

Deleting the cells of a polygon takes back exactly what storing them wrote. `IDEL` has
no list of the keys of an index: it takes the polygons away one by one, and the cells
vanish with their last members. What remains is the keyspace without the keys that
start with the name of the index and a colon, since that is the one keyspace that
stands for the remaining contents.
-/

namespace RedisS2Geo.Guarantees
open Foundation Source Covering Store

variable {env : Environment} {K : Keyspace Bytes} {A : Contents} {i : Bytes}

/-! ### The cells of a polygon -/

/-- Storing the cells of a new polygon and deleting them again restores every keyspace,
in whatever orders the terms are listed and whatever the keys hold. -/
theorem cells_restored {p : Bytes} {terms : Finset Bytes} (hne : terms.Nonempty)
    (hinfo : K (createPolygonCellInfoSetKey i p) = none)
    (hcells : ∀ t ∈ terms, ∀ s, asSet (K (createIndexCellsSetKey i t)) = some s → p ∉ s)
    (ω ω' : Orders) :
    ∃ K', setPolygonCells ω i p terms K = some (.ok (), K') ∧
      deletePolygonCells ω' i p K' = some (.ok (), K) := by
  have hstored : asSet (withCells K i p terms (createPolygonCellInfoSetKey i p)) =
      some terms := by
    rw [withCells, addToSets, if_neg (cellinfoKey_notMem _ _ _), Function.update_self, hinfo,
      addMembers_none, asSet_ofSet]
  refine ⟨_, setPolygonCells_eq ω i p terms K, ?_⟩
  rw [deletePolygonCells_eq ω' hstored, if_neg hne.ne_empty, withoutCells_withCells hinfo hcells]

/-- A cell that another polygon has, one of another type and an absent one. -/
def sharedCells : Keyspace Bytes := fun key =>
  if key = ascii "i:cells:0*" then ofSet {ascii "q"}
  else if key = ascii "i:cells:0/1*" then some (.other (ascii "string") [])
  else none

theorem cells_restored_shared :
    ∃ K', setPolygonCells ascending (ascii "i") (ascii "p")
        {ascii "0*", ascii "0/1*", ascii "0/1"} sharedCells = some (.ok (), K') ∧
      deletePolygonCells ascending (ascii "i") (ascii "p") K' = some (.ok (), sharedCells) := by
  apply cells_restored
  · exact ⟨ascii "0*", by simp⟩
  · exact (if_neg (by decide)).trans (if_neg (by decide))
  · intro t _ s hs
    unfold sharedCells at hs
    split at hs
    · obtain rfl : {ascii "q"} = s := by simpa using hs
      decide
    · split at hs
      · cases hs
      · obtain rfl : ∅ = s := by simpa using hs
        decide

/-! ### The keys of an index -/

/-- The keyspace without the keys that start with the name of an index and a colon. -/
def withoutIndex (K : Keyspace Bytes) (indexName : Bytes) : Keyspace Bytes := fun key =>
  if indexName ++ [entityDelim] <+: key then none else K key

/-- Without its keys, the contents have no such index. -/
theorem represents_withoutIndex (h : Represents env K A) (hi : entityDelim ∉ i) :
    Represents env (withoutIndex K i) (Function.update A i none) where
  wellFormed := h.wellFormed.update (by simp)
  at_key k hk := by
    simp only [withoutIndex, StoreKey.startsWith_iff hi hk]
    split
    · obtain rfl : k.index = i := ‹_›
      exact (Contents.valueAt_of_none (Function.update_self _ _ _)).symm
    · rw [h.at_key k hk]
      exact Contents.valueAt_congr (Function.update_of_ne ‹_› _ _).symm
  elsewhere key hkey := by
    rw [withoutIndex, h.elsewhere key hkey, ite_self]

/-- An index that lists nothing and in which no accepted query finds anything. -/
structure EmptyIndex (env : Environment) (K : Keyspace Bytes) (i : Bytes) : Prop where
  polylist : ∀ ω, exec env ω ⟨.polylist, [i]⟩ K = some (replyWithArray [], K)
  polysearch : ∀ ω q, parsePolygon env q ≠ none → bodyCovering env q ≠ [] →
    exec env ω ⟨.polysearch, [i, q]⟩ K = some (replyWithArray [], K)
  pointsearch : ∀ ω q, parseLatLng env q ≠ none →
    exec env ω ⟨.pointsearch, [i, q]⟩ K = some (replyWithArray [], K)

/-- Every order lists the empty set as the empty list. -/
theorem list_eq_nil (e : Enumeration Bytes) {s : Finset Bytes} (h : ∀ p, p ∉ s) :
    e.list s = [] := by
  rw [List.eq_nil_iff_forall_not_mem]
  intro p
  rw [Enumeration.mem_list]
  exact h p

/-- An index without polygons in the contents is empty to every command. -/
theorem emptyIndex_of_represents (h : Represents env K A) (hi : Accepted i)
    (hA : A (cString i) = some ∅) : EmptyIndex env K i where
  polylist ω := by
    have hhash := h.asHash_polygons hi.notMem
    rw [Contents.polygons_of_some hA] at hhash
    have hlist : ω.hkeys.list (∅ : Polygons).keys = [] := list_eq_nil _ (by simp)
    have hreply := listPolygonsCommand_exists ω (h.indexExists hi hA) hhash
    rwa [hlist] at hreply
  polysearch ω q hq hne := by
    obtain ⟨polygon, hq⟩ := Option.ne_none_iff_exists'.mp hq
    rw [bodyCovering, hq] at hne
    obtain ⟨s, hs, hmem⟩ := h.searchPolygonCommand_eq ω hi hA hq hne
    have hlist : ω.sunion.list s = [] := list_eq_nil _ fun p => by simp [hmem]
    rwa [hlist] at hs
  pointsearch ω q hq := by
    obtain ⟨point, hq⟩ := Option.ne_none_iff_exists'.mp hq
    obtain ⟨s, hs, hmem⟩ := h.searchPointCommand_eq ω hi hA hq
    have hlist : ω.sunion.list s = [] := list_eq_nil _ fun p => by simp [hmem]
    rwa [hlist] at hs

/-- Deleting an index removes its keys and nothing else, and the next index of the same
name is empty. -/
theorem idel_exact (hK : ReachableStore env K) (hi : NulFree i) (hx : IndexExists K i)
    (ω ω' : Orders) :
    exec env ω ⟨.idel, [i]⟩ K = some (replyWithLongLong 1, withoutIndex K i) ∧
    ∃ K', exec env ω' ⟨.iset, [i]⟩ (withoutIndex K i) =
        some (replyWithSimpleString "OK", K') ∧ EmptyIndex env K' i := by
  obtain ⟨A, h⟩ := hK.represents
  obtain ⟨m, hA⟩ := h.exists_polygons hx
  have hcs : cString i = i := cString_eq_self hi
  have hd : entityDelim ∉ i := hcs ▸ hx.accepted.notMem
  have hname : PlainName (cString i) := h.wellFormed.name hA
  -- the keyspace after the loop stands for the same contents as the one without the keys
  obtain ⟨K₁, hdel, h₁⟩ := h.deleteIndexCommand_exists ω hx.accepted hA
  have h₁' := represents_withoutIndex h hd
  rw [hcs] at h₁
  obtain rfl := h₁.unique h₁'
  have hnone : Function.update A i none (cString i) = none := by
    rw [hcs, Function.update_self]
  have hset := setIndexCommand_absent (h₁.indexAbsent hx.accepted hnone)
  have h₂ := h₁.create hx.accepted.notMem hname hnone
  exact ⟨hdel, _, hset,
    emptyIndex_of_represents h₂ hx.accepted (Function.update_self _ _ _)⟩

/-- After the deletion of an index with a polygon, its bodies key is gone. -/
theorem idel_exact_triangle :
    ∃ K K', bodyAt K (ascii "i") (ascii "p") = some triangleBody ∧
      exec sampleEnvironment ascending ⟨.idel, [ascii "i"]⟩ K =
        some (replyWithLongLong 1, K') ∧ K' (ascii "i:polygons") = none := by
  obtain ⟨K, hK, hx, hb⟩ := exists_sample covered_triangleBody
  obtain ⟨hdel, -⟩ := idel_exact hK (by decide) hx ascending ascending
  exact ⟨K, _, hb, hdel, if_pos (by decide)⟩

end RedisS2Geo.Guarantees
