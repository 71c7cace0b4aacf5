import RedisS2Geo.Guarantees.Picture
import RedisS2Geo.Guarantees.Searches

/-!
# Searches see two regions of a covering

The reply of a polygon search depends on the region of the face cells and on the region of
the smaller cells, and grows with both. How the smaller cells cut their region does not
matter; a face and its four children are told apart. A query without face cells is the union
of the point searches inside its region.
-/

namespace RedisS2Geo.Guarantees
open Foundation Source Covering Store

variable {env : Environment} {K : Keyspace Bytes} {i q q' : Bytes}

/-- The reply of a polygon search in terms of regions. -/
theorem polygonSearch_regions (hK : ReachableStore env K) (hx : IndexExists K i)
    (hq : parsePolygon env q ≠ none) (hne : bodyCovering env q ≠ []) (ω : Orders) :
    ∃ o, exec env ω ⟨.polysearch, [i, q]⟩ K = some (o, K) ∧ ∀ p, Lists o p ↔
      ∃ b, bodyAt K i p = some b ∧ Overlaps (bodyCovering env b) (bodyCovering env q) := by
  obtain ⟨A, h⟩ := hK.represents
  obtain ⟨polygon, hparse⟩ := Option.ne_none_iff_exists'.mp hq
  obtain ⟨names, hs, -, hmem⟩ := polygonSearch_reply h hx ω hparse hne
  refine ⟨_, hs, fun p => ?_⟩
  rw [lists_map_some, hmem]
  simp only [overlaps_iff]

/-- The reply of a point search in terms of regions. -/
theorem pointSearch_regions {point : env.LatLng} (hK : ReachableStore env K)
    (hx : IndexExists K i) (hq : parseLatLng env q = some point) (ω : Orders) :
    ∃ o, exec env ω ⟨.pointsearch, [i, q]⟩ K = some (o, K) ∧ ∀ p, Lists o p ↔
      ∃ b, bodyAt K i p = some b ∧ leafOf env point ∈ innerRegion (bodyCovering env b) := by
  obtain ⟨A, h⟩ := hK.represents
  obtain ⟨names, hs, -, hmem⟩ := pointSearch_reply h hx ω hq
  refine ⟨_, hs, fun p => ?_⟩
  rw [lists_map_some, hmem]
  simp only [leafOf, mem_innerRegion (env.cellIdOfPoint (env.toPoint point)).2]

/-- A polygon search grows with the two regions of its query: when the face cells and the
smaller cells of one covering cover no more than those of another, its names are among the
names of the other. When they cover the same, both searches return the same names. -/
theorem polygonSearch_mono (hK : ReachableStore env K) (hx : IndexExists K i)
    (hne : bodyCovering env q ≠ []) (hne' : bodyCovering env q' ≠ []) (ω ω' : Orders) :
    ∃ o o', exec env ω ⟨.polysearch, [i, q]⟩ K = some (o, K) ∧
      exec env ω' ⟨.polysearch, [i, q']⟩ K = some (o', K) ∧
      (faceRegion (bodyCovering env q) ⊆ faceRegion (bodyCovering env q') →
        innerRegion (bodyCovering env q) ⊆ innerRegion (bodyCovering env q') →
        ∀ p, Lists o p → Lists o' p) ∧
      (faceRegion (bodyCovering env q) = faceRegion (bodyCovering env q') →
        innerRegion (bodyCovering env q) = innerRegion (bodyCovering env q') →
        ∀ p, Lists o p ↔ Lists o' p) := by
  have hq : parsePolygon env q ≠ none := Option.ne_none_iff_exists'.mpr (exists_parsed hne)
  have hq' : parsePolygon env q' ≠ none := Option.ne_none_iff_exists'.mpr (exists_parsed hne')
  obtain ⟨o, ho, hlists⟩ := polygonSearch_regions hK hx hq hne ω
  obtain ⟨o', ho', hlists'⟩ := polygonSearch_regions hK hx hq' hne' ω'
  refine ⟨o, o', ho, ho', ?_, ?_⟩
  · intro hface hinner p hp
    obtain ⟨b, hb, hover⟩ := (hlists p).mp hp
    exact (hlists' p).mpr ⟨b, hb, hover.mono hface hinner⟩
  · intro hface hinner p
    rw [hlists, hlists']
    simp only [Overlaps, hface, hinner]

/-- On the picture of the test data the yellow polygon lies in the red one, which is stored
under the name `p`. -/
theorem polygonSearch_mono_picture :
    ∃ K o o', exec pictureEnvironment ascending
        ⟨.polysearch, [ascii "i", kPolygonBody .yellow]⟩ K = some (o, K) ∧
      exec pictureEnvironment ascending ⟨.polysearch, [ascii "i", kPolygonBody .red]⟩ K =
        some (o', K) ∧ Lists o (ascii "p") ∧ ∀ p, Lists o p → Lists o' p := by
  obtain ⟨K, -, hK, hx, hb⟩ := exists_single pictureEnvironment ascending plainName_i
    plainName_p (bodyTerms_eq_empty_iff.not.mpr (covered_picture .red))
  obtain ⟨o, o', ho, ho', hmono, -⟩ := polygonSearch_mono hK hx (covered_picture .yellow)
    (covered_picture .red) ascending ascending
  have hcells : bodyCovering pictureEnvironment (kPolygonBody .yellow) ⊆
      bodyCovering pictureEnvironment (kPolygonBody .red) := by
    rw [bodyCovering_picture, bodyCovering_picture]
    exact List.map_subset quarter (by decide)
  refine ⟨K, o, o', ho, ho', ?_, hmono (faceRegion_mono hcells) (innerRegion_mono hcells)⟩
  -- the reply to the query of the yellow polygon holds the red one
  have hparse : parsePolygon pictureEnvironment (kPolygonBody .yellow) ≠ none :=
    Option.ne_none_iff_exists'.mpr (exists_parsed (covered_picture .yellow))
  obtain ⟨o₁, ho₁, hlists⟩ :=
    polygonSearch_regions hK hx hparse (covered_picture .yellow) ascending
  obtain ⟨rfl, -⟩ := exec_unique ho ho₁
  refine (hlists (ascii "p")).mpr ⟨_, hb, ?_⟩
  rw [bodyCovering_picture, bodyCovering_picture, overlaps_quarters]
  decide

/-- For a query whose covering has no face cells, a polygon search is the union of the
point searches inside the region of the query: every name it returns is returned by the
point searches at some leaf of the region, and it returns whatever one of them returns. -/
theorem polygonSearch_eq_pointSearches (hK : ReachableStore env K) (hx : IndexExists K i)
    (hq : parsePolygon env q ≠ none) (hne : bodyCovering env q ≠ [])
    (hface : ∀ c ∈ bodyCovering env q, c.level ≠ 0) (ω ω' : Orders) :
    ∃ o, exec env ω ⟨.polysearch, [i, q]⟩ K = some (o, K) ∧
      (∀ p, Lists o p → ∃ l ∈ leafRegion (bodyCovering env q), ∀ x point,
        parseLatLng env x = some point → leafOf env point = l →
        ∃ o', exec env ω' ⟨.pointsearch, [i, x]⟩ K = some (o', K) ∧ Lists o' p) ∧
      ∀ x point o' p, parseLatLng env x = some point →
        leafOf env point ∈ leafRegion (bodyCovering env q) →
        exec env ω' ⟨.pointsearch, [i, x]⟩ K = some (o', K) → Lists o' p → Lists o p := by
  have hfaces : (bodyCovering env q).filter (·.level = 0) = [] :=
    List.filter_eq_nil_iff.mpr fun c hc => by simpa using hface c hc
  have hall : (bodyCovering env q).filter (·.level ≠ 0) = bodyCovering env q :=
    List.filter_eq_self.mpr fun c hc => by simpa using hface c hc
  have hinner : innerRegion (bodyCovering env q) = leafRegion (bodyCovering env q) := by
    rw [innerRegion, hall]
  have hnone : faceRegion (bodyCovering env q) = ∅ := by
    rw [faceRegion, hfaces]
    exact Set.eq_empty_of_forall_notMem fun l hl => by simp [leafRegion] at hl
  obtain ⟨o, ho, hlists⟩ := polygonSearch_regions hK hx hq hne ω
  refine ⟨o, ho, fun p hp => ?_, fun x point o' p hx' hin ho' hp => ?_⟩
  · obtain ⟨b, hb, hover⟩ := (hlists p).mp hp
    rw [Overlaps, hnone, Set.inter_empty, hinner] at hover
    obtain ⟨l, hl, hlq⟩ := hover.resolve_left Set.not_nonempty_empty
    refine ⟨l, hlq, fun x point hx' hleaf => ?_⟩
    obtain ⟨o', ho', hlists'⟩ := pointSearch_regions hK hx hx' ω'
    exact ⟨o', ho', (hlists' p).mpr ⟨b, hb, hleaf ▸ hl⟩⟩
  · obtain ⟨o'', ho'', hlists'⟩ := pointSearch_regions hK hx hx' ω'
    obtain ⟨rfl, -⟩ := exec_unique ho' ho''
    obtain ⟨b, hb, hl⟩ := (hlists' p).mp hp
    exact (hlists p).mpr ⟨b, hb, Or.inr ⟨_, hl, hinner ▸ hin⟩⟩

theorem polygonSearch_eq_pointSearches_triangle :
    ∃ K o, exec sampleEnvironment ascending ⟨.polysearch, [ascii "i", triangleBody]⟩ K =
        some (o, K) ∧
      ∀ x point o' p, parseLatLng sampleEnvironment x = some point →
        leafOf sampleEnvironment point ∈ leafRegion (bodyCovering sampleEnvironment triangleBody) →
        exec sampleEnvironment ascending ⟨.pointsearch, [ascii "i", x]⟩ K = some (o', K) →
        Lists o' p → Lists o p := by
  obtain ⟨K, hK, hx, -⟩ := exists_sample covered_triangleBody
  have hparse : parsePolygon sampleEnvironment triangleBody ≠ none := by
    rw [parsePolygon_triangleBody]
    exact Option.some_ne_none _
  have hface : ∀ c ∈ bodyCovering sampleEnvironment triangleBody, c.level ≠ 0 := by
    rw [bodyCovering_triangleBody]
    decide
  obtain ⟨o, ho, -, h⟩ := polygonSearch_eq_pointSearches hK hx hparse covered_triangleBody hface
    ascending ascending
  exact ⟨K, o, ho, h⟩

end RedisS2Geo.Guarantees
