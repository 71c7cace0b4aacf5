import RedisS2Geo.Covering.Chain
import RedisS2Geo.Guarantees.Searches

/-!
# The terms of a point

A point is looked up with the ancestor chain of its leaf, one term for each level. A
query polygon covered by this leaf is looked up with a starred term besides, which no
stored covering can add to what the chain finds.
-/

namespace RedisS2Geo.Guarantees
open Foundation Source Covering Store

variable {env : Environment} {K : Keyspace Bytes} {A : Contents} {i b q : Bytes}
variable {l : S2CellId}

/-! ### The ancestor chain -/

/-- A leaf has one term for each level, all of them prefixes of its name, and shares with
another leaf the terms of their common ancestors. -/
theorem point_terms_chain (hl : l.IsLeaf) :
    indexLeaf l = (Finset.range 31).image (levelTerm l) ∧ (indexLeaf l).card = 31 ∧
    (∀ t ∈ indexLeaf l, t <+: cellIdToString l) ∧
    ∀ l' : S2CellId, l'.IsLeaf → (indexLeaf l ∩ indexLeaf l').card =
      if l.root = l'.root then l.commonLevel l' + 1 else 0 := by
  refine ⟨indexLeaf_eq_image hl, card_indexLeaf hl, ?_, fun l' => card_indexLeaf_inter hl⟩
  intro t ht
  rw [indexLeaf_eq_image hl, Finset.mem_image] at ht
  obtain ⟨n, -, rfl⟩ := ht
  exact levelTerm_prefix l n

/-- A leaf in the same cell of level one as the leaf at the origin. -/
def cousinOfOrigin : {cellId : S2CellId // cellId.IsLeaf} :=
  ⟨⟨leafOfOrigin.1.root, leafOfOrigin.1.path.set 1 (Fin.last 3), by decide⟩, rfl⟩

/-- Two leaves that part below level one share the terms of the levels zero and one. -/
theorem point_terms_chain_cousins : (indexLeaf leafOfOrigin.1).card = 31 ∧
    (indexLeaf leafOfOrigin.1 ∩ indexLeaf cousinOfOrigin.1).card = 2 := by
  obtain ⟨-, hcard, -, hshared⟩ := point_terms_chain leafOfOrigin.2
  refine ⟨hcard, ?_⟩
  rw [hshared _ cousinOfOrigin.2]
  decide

/-! ### Queries with one leaf -/

/-- The point of the body lies in the leaf. -/
def PointIn (env : Environment) (b : Bytes) (l : S2CellId) : Prop :=
  ∃ point, parseLatLng env b = some point ∧ leafOf env point = l

/-- The polygon of the body is covered by the leaf alone. -/
def CoveredBy (env : Environment) (q : Bytes) (l : S2CellId) : Prop :=
  ∀ c, c ∈ bodyCovering env q ↔ c = l

/-- The starred term that only the covering has finds nothing that the chain misses. -/
theorem leaf_terms_agree (hl : l.IsLeaf) (cells : List S2CellId) :
    (∃ t ∈ storedTerms cells, t ∈ indexLeaf l) ↔
      ∃ t ∈ storedTerms cells, t ∈ queryTerms [l] := by
  rw [storedTerms_meets_leaf_iff hl, storedTerms_meets_iff]
  simp only [List.mem_singleton, exists_eq_left, meets_leaf_iff _ hl]

/-- In an existing index both searches list the polygons with a cell below the faces
around the leaf. -/
theorem leaf_searches_agree (h : Represents env K A) (hx : IndexExists K i) (hl : l.IsLeaf)
    (hb : PointIn env b l) (hq : CoveredBy env q l) (ω ω' : Orders) :
    ∃ names names' : List Bytes,
      exec env ω ⟨.pointsearch, [i, b]⟩ K = some (replyWithArray (names.map some), K) ∧
      exec env ω' ⟨.polysearch, [i, q]⟩ K = some (replyWithArray (names'.map some), K) ∧
      names.Perm names' := by
  obtain ⟨point, hpoint, rfl⟩ := hb
  have hne : bodyCovering env q ≠ [] := List.ne_nil_of_mem ((hq _).mpr rfl)
  obtain ⟨polygon, hpolygon⟩ := exists_parsed hne
  obtain ⟨names, hs, hnodup, hmem⟩ := pointSearch_reply h hx ω hpoint
  obtain ⟨names', hs', hnodup', hmem'⟩ := polygonSearch_reply h hx ω' hpolygon hne
  refine ⟨names, names', hs, hs', (List.perm_ext_iff_of_nodup hnodup hnodup').mpr fun p => ?_⟩
  rw [hmem, hmem']
  have hmeets : ∀ c, (∃ d ∈ bodyCovering env q, Meets c d) ↔
      c.Contains (leafOf env point) ∧ 1 ≤ c.level := by
    intro c
    rw [← meets_leaf_iff c hl]
    simp only [hq _, exists_eq_left]
  simp only [hmeets]

/-- Without the index both searches are refused with the same text. -/
theorem searches_refused (h : Represents env K A) (hx : ¬ IndexExists K i) (b q : Bytes)
    (ω ω' : Orders) :
    ∃ text, exec env ω ⟨.pointsearch, [i, b]⟩ K = some (replyWithError text, K) ∧
      exec env ω' ⟨.polysearch, [i, q]⟩ K = some (replyWithError text, K) := by
  by_cases hi : Accepted i
  · cases hA : A (cString i) with
    | none =>
        have habsent := h.indexAbsent hi hA
        exact ⟨_, searchPointCommand_absent ω habsent, searchPolygonCommand_absent ω' habsent⟩
    | some m => exact absurd (h.indexExists hi hA) hx
  · exact ⟨_, exec_indexName_refused ω (.pointsearch i b) rfl hi,
      exec_indexName_refused ω' (.polysearch i q) rfl hi⟩

/-- A point in a leaf and a polygon covered by the leaf have the same answers, against
every stored covering and in every store. -/
theorem pointSearch_eq_leafSearch (hl : l.IsLeaf) :
    (∀ cells : List S2CellId, (∃ t ∈ storedTerms cells, t ∈ indexLeaf l) ↔
      ∃ t ∈ storedTerms cells, t ∈ queryTerms [l]) ∧
    ∀ (env : Environment) (K : Keyspace Bytes) (i b q : Bytes) (ω ω' : Orders),
      ReachableStore env K → PointIn env b l → CoveredBy env q l →
      (IndexExists K i ∧ ∃ names names' : List Bytes,
        exec env ω ⟨.pointsearch, [i, b]⟩ K = some (replyWithArray (names.map some), K) ∧
        exec env ω' ⟨.polysearch, [i, q]⟩ K = some (replyWithArray (names'.map some), K) ∧
        names.Perm names') ∨
      (¬ IndexExists K i ∧ ∃ text,
        exec env ω ⟨.pointsearch, [i, b]⟩ K = some (replyWithError text, K) ∧
        exec env ω' ⟨.polysearch, [i, q]⟩ K = some (replyWithError text, K)) := by
  refine ⟨leaf_terms_agree hl, ?_⟩
  intro env K i b q ω ω' hK hb hq
  obtain ⟨A, h⟩ := hK.represents
  by_cases hx : IndexExists K i
  · exact Or.inl ⟨hx, leaf_searches_agree h hx hl hb hq ω ω'⟩
  · exact Or.inr ⟨hx, searches_refused h hx b q ω ω'⟩

/-- The origin and the small triangle around it. -/
theorem pointSearch_eq_leafSearch_triangle :
    ∃ K, bodyAt K (ascii "i") (ascii "p") = some triangleBody ∧
      ∃ names names' : List Bytes,
        exec sampleEnvironment ascending ⟨.pointsearch, [ascii "i", ascii "[0,0]"]⟩ K =
          some (replyWithArray (names.map some), K) ∧
        exec sampleEnvironment ascending ⟨.polysearch, [ascii "i", triangleBody]⟩ K =
          some (replyWithArray (names'.map some), K) ∧ names.Perm names' := by
  obtain ⟨K, hK, hx, hbody⟩ := exists_sample covered_triangleBody
  have hb : PointIn sampleEnvironment (ascii "[0,0]") leafOfOrigin.1 :=
    ⟨(ascii "0", ascii "0"), rfl, rfl⟩
  have hq : CoveredBy sampleEnvironment triangleBody leafOfOrigin.1 := by
    simp [CoveredBy, bodyCovering_triangleBody]
  rcases (pointSearch_eq_leafSearch leafOfOrigin.2).2 sampleEnvironment K (ascii "i")
    (ascii "[0,0]") triangleBody ascending ascending hK hb hq with ⟨-, hagree⟩ | ⟨hn, -⟩
  · exact ⟨K, hbody, hagree⟩
  · exact absurd hx hn

end RedisS2Geo.Guarantees
