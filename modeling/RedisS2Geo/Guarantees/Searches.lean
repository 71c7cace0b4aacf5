import RedisS2Geo.Store.Runs

/-!
# What the two searches return

A search returns exactly the stored polygons whose covering meets the query. For
polygons this relation is `Meets`, for points it is containment in a cell below
the faces: the term of a face cell is its name with the slash, and the searches
look a face up by its bare digit.
-/

namespace RedisS2Geo.Guarantees
open Foundation Source Covering Store

/-- The leaf cell of an accepted point. -/
def leafOf (env : Environment) (point : env.LatLng) : S2CellId :=
  (env.cellIdOfPoint (env.toPoint point)).1

variable {env : Environment} {K : Keyspace Bytes} {A : Contents} {i p q b c : Bytes}
variable {polygon : S2Polygon env.Point} {point : env.LatLng}

/-! ### The replies of a search -/

/-- A stored body is the one that the contents have. -/
theorem lookup_of_bodyAt {m : Polygons} (h : Represents env K A) (hi : Accepted i)
    (hA : A (cString i) = some m) : bodyAt K i p = m.lookup p := by
  rw [h.bodyAt_eq hi.notMem, Contents.polygons_of_some hA]

/-- A stored body parses, and its covering has cells. -/
theorem stored_body (h : Represents env K A) (hx : IndexExists K i)
    (hb : bodyAt K i p = some b) :
    (∃ polygon, parsePolygon env b = some polygon) ∧ bodyCovering env b ≠ [] := by
  obtain ⟨m, hA⟩ := h.exists_polygons hx
  rw [lookup_of_bodyAt h hx.accepted hA] at hb
  have hcover : bodyCovering env b ≠ [] :=
    bodyTerms_eq_empty_iff.not.mp ((h.wellFormed.polygons hA).terms hb)
  exact ⟨exists_parsed hcover, hcover⟩

/-- A polygon is found through the terms of its current body. -/
theorem exists_mem_termsOf {m : Polygons} {terms : Finset Bytes} :
    (∃ t ∈ termsOf env m p, t ∈ terms) ↔
      ∃ b, m.lookup p = some b ∧ ∃ t ∈ bodyTerms env b, t ∈ terms := by
  cases hl : m.lookup p with
  | none => simp [termsOf, hl]
  | some b => simp [termsOf, hl]

/-- The reply of a polygon search, name by name. -/
theorem polygonSearch_reply (h : Represents env K A) (hx : IndexExists K i) (ω : Orders)
    (hq : parsePolygon env q = some polygon) (hne : bodyCovering env q ≠ []) :
    ∃ names : List Bytes, exec env ω ⟨.polysearch, [i, q]⟩ K =
        some (replyWithArray (names.map some), K) ∧ names.Nodup ∧
      ∀ p, p ∈ names ↔ ∃ b, bodyAt K i p = some b ∧
        ∃ c ∈ bodyCovering env b, ∃ d ∈ bodyCovering env q, Meets c d := by
  obtain ⟨m, hA⟩ := h.exists_polygons hx
  rw [bodyCovering, hq] at hne
  obtain ⟨s, hs, hmem⟩ := h.searchPolygonCommand_eq ω hx.accepted hA hq hne
  refine ⟨ω.sunion.list s, hs, ω.sunion.nodup s, fun p => ?_⟩
  rw [Enumeration.mem_list, hmem, exists_mem_termsOf, lookup_of_bodyAt h hx.accepted hA]
  simp only [bodyTerms, indexPolygon_meets_iff, bodyCovering, hq]

/-- The reply of a point search, name by name. -/
theorem pointSearch_reply (h : Represents env K A) (hx : IndexExists K i) (ω : Orders)
    (hq : parseLatLng env q = some point) :
    ∃ names : List Bytes, exec env ω ⟨.pointsearch, [i, q]⟩ K =
        some (replyWithArray (names.map some), K) ∧ names.Nodup ∧
      ∀ p, p ∈ names ↔ ∃ b, bodyAt K i p = some b ∧
        ∃ c ∈ bodyCovering env b, c.Contains (leafOf env point) ∧ 1 ≤ c.level := by
  obtain ⟨m, hA⟩ := h.exists_polygons hx
  obtain ⟨s, hs, hmem⟩ := h.searchPointCommand_eq ω hx.accepted hA hq
  refine ⟨ω.sunion.list s, hs, ω.sunion.nodup s, fun p => ?_⟩
  rw [Enumeration.mem_list, hmem, exists_mem_termsOf, lookup_of_bodyAt h hx.accepted hA]
  simp only [bodyTerms, indexPolygon_meets_point_iff, bodyCovering, leafOf]

/-! ### Point search -/

/-- A point search finds the polygons around the leaf of the point exactly when a face
cell around the leaf does not stand alone in the covering. -/
theorem pointSearch_complete_iff (hK : ReachableStore env K) (hx : IndexExists K i)
    (hb : bodyAt K i p = some b) (hq : parseLatLng env q = some point) (ω : Orders) :
    ((∃ c ∈ bodyCovering env b, c.Contains (leafOf env point)) →
      ∃ o K', exec env ω ⟨.pointsearch, [i, q]⟩ K = some (o, K') ∧ Lists o p) ↔
    ((∃ c ∈ bodyCovering env b, c.level = 0 ∧ c.Contains (leafOf env point)) →
      ∃ c ∈ bodyCovering env b, 1 ≤ c.level ∧ c.Contains (leafOf env point)) := by
  obtain ⟨A, h⟩ := hK.represents
  obtain ⟨names, hs, -, hmem⟩ := pointSearch_reply h hx ω hq
  have hfound : (∃ o K', exec env ω ⟨.pointsearch, [i, q]⟩ K = some (o, K') ∧ Lists o p) ↔
      ∃ c ∈ bodyCovering env b, 1 ≤ c.level ∧ c.Contains (leafOf env point) := by
    rw [exec_lists_iff hs, hmem]
    constructor
    · rintro ⟨b', hb', c, hc, hin, hlevel⟩
      obtain rfl : b = b' := Option.some.inj (hb.symm.trans hb')
      exact ⟨c, hc, hlevel, hin⟩
    · rintro ⟨c, hc, hlevel, hin⟩
      exact ⟨b, hb, c, hc, hin, hlevel⟩
  rw [hfound]
  constructor
  · rintro himp ⟨c, hc, -, hin⟩
    exact himp ⟨c, hc, hin⟩
  · rintro himp ⟨c, hc, hin⟩
    rcases Nat.eq_zero_or_pos c.level with h0 | hpos
    · exact himp ⟨c, hc, h0, hin⟩
    · exact ⟨c, hc, hpos, hin⟩

/-- A polygon around the whole earth is stored, but a search for the origin misses it. -/
theorem pointSearch_misses_face :
    ∃ K, ReachableStore sampleEnvironment K ∧ IndexExists K (ascii "i") ∧
      bodyAt K (ascii "i") (ascii "p") = some holeBody ∧
      parseLatLng sampleEnvironment (ascii "[0,0]") = some (ascii "0", ascii "0") ∧
      (∃ c ∈ bodyCovering sampleEnvironment holeBody,
        c.Contains (leafOf sampleEnvironment (ascii "0", ascii "0"))) ∧
      ∃ o, exec sampleEnvironment ascending ⟨.pointsearch, [ascii "i", ascii "[0,0]"]⟩ K =
        some (o, K) ∧ ¬ Lists o (ascii "p") := by
  have hpoint : parseLatLng sampleEnvironment (ascii "[0,0]") = some (ascii "0", ascii "0") := rfl
  obtain ⟨K, hK, hx, hb⟩ := exists_sample covered_holeBody
  obtain ⟨A, h⟩ := hK.represents
  obtain ⟨names, hs, -, hmem⟩ := pointSearch_reply h hx ascending hpoint
  refine ⟨K, hK, hx, hb, hpoint, ?_, _, hs, ?_⟩
  · rw [bodyCovering_holeBody]
    decide
  · rw [lists_map_some, hmem]
    rintro ⟨b, hb', c, hc, -, hlevel⟩
    obtain rfl : holeBody = b := Option.some.inj (hb.symm.trans hb')
    have hface : ∀ d ∈ faces, d.level = 0 := by decide
    have := hface c (bodyCovering_holeBody ▸ hc)
    omega

theorem pointSearch_complete_iff_triangle :
    ∃ K, bodyAt K (ascii "i") (ascii "p") = some triangleBody ∧
      ∃ o K', exec sampleEnvironment ascending ⟨.pointsearch, [ascii "i", ascii "[0,0]"]⟩ K =
        some (o, K') ∧ Lists o (ascii "p") := by
  obtain ⟨K, hK, hx, hb⟩ := exists_sample covered_triangleBody
  have hpoint : parseLatLng sampleEnvironment (ascii "[0,0]") = some (ascii "0", ascii "0") := rfl
  refine ⟨K, hb, (pointSearch_complete_iff hK hx hb hpoint ascending).mpr ?_ ?_⟩
  · rintro ⟨c, hc, h0, -⟩
    obtain rfl : c = leafOfOrigin.1 := by simpa [bodyCovering_triangleBody] using hc
    exact absurd h0 (by decide)
  · exact ⟨leafOfOrigin.1, by simp [bodyCovering_triangleBody], Cell.contains_refl _⟩

/-! ### Polygon search -/

/-- A polygon search finds the polygons that overlap the query exactly when the overlap
shows in two cells of which both or neither are faces. -/
theorem polygonSearch_complete_iff (hK : ReachableStore env K) (hx : IndexExists K i)
    (hb : bodyAt K i p = some b) (hq : parsePolygon env q = some polygon)
    (hne : bodyCovering env q ≠ []) (ω : Orders) :
    ((∃ c ∈ bodyCovering env b, ∃ d ∈ bodyCovering env q, c.SharesLeaf d) →
      ∃ o K', exec env ω ⟨.polysearch, [i, q]⟩ K = some (o, K') ∧ Lists o p) ↔
    ((∃ c ∈ bodyCovering env b, ∃ d ∈ bodyCovering env q, c.SharesLeaf d) →
      ∃ c ∈ bodyCovering env b, ∃ d ∈ bodyCovering env q,
        c.SharesLeaf d ∧ (c.level = 0 ↔ d.level = 0)) := by
  obtain ⟨A, h⟩ := hK.represents
  obtain ⟨names, hs, -, hmem⟩ := polygonSearch_reply h hx ω hq hne
  have hfound : (∃ o K', exec env ω ⟨.polysearch, [i, q]⟩ K = some (o, K') ∧ Lists o p) ↔
      ∃ c ∈ bodyCovering env b, ∃ d ∈ bodyCovering env q, Meets c d := by
    rw [exec_lists_iff hs, hmem]
    constructor
    · rintro ⟨b', hb', hmeets⟩
      obtain rfl : b = b' := Option.some.inj (hb.symm.trans hb')
      exact hmeets
    · intro hmeets
      exact ⟨b, hb, hmeets⟩
  rw [hfound]
  rfl

/-- A polygon around the whole earth is stored, but a search for a small triangle, whose
cell lies in the covering, misses it. -/
theorem polygonSearch_misses_face :
    ∃ K, ReachableStore sampleEnvironment K ∧ IndexExists K (ascii "i") ∧
      bodyAt K (ascii "i") (ascii "p") = some holeBody ∧
      parsePolygon sampleEnvironment triangleBody = some smallTriangle ∧
      bodyCovering sampleEnvironment triangleBody ≠ [] ∧
      (∃ c ∈ bodyCovering sampleEnvironment holeBody,
        ∃ d ∈ bodyCovering sampleEnvironment triangleBody, c.SharesLeaf d) ∧
      ∃ o, exec sampleEnvironment ascending ⟨.polysearch, [ascii "i", triangleBody]⟩ K =
        some (o, K) ∧ ¬ Lists o (ascii "p") := by
  have hquery := parsePolygon_triangleBody
  have hne := covered_triangleBody
  obtain ⟨K, hK, hx, hb⟩ := exists_sample covered_holeBody
  obtain ⟨A, h⟩ := hK.represents
  obtain ⟨names, hs, -, hmem⟩ := polygonSearch_reply h hx ascending hquery hne
  refine ⟨K, hK, hx, hb, hquery, hne, ?_, _, hs, ?_⟩
  · rw [bodyCovering_holeBody, bodyCovering_triangleBody]
    exact ⟨⟨0, [], by decide⟩, by decide, leafOfOrigin.1, by simp,
      Cell.sharesLeaf_iff.mpr (Or.inl (by decide))⟩
  · rw [lists_map_some, hmem]
    rintro ⟨b, hb', c, hc, d, hd, -, hlevel⟩
    obtain rfl : holeBody = b := Option.some.inj (hb.symm.trans hb')
    have hface : ∀ d ∈ faces, d.level = 0 := by decide
    obtain rfl : d = leafOfOrigin.1 := by simpa [bodyCovering_triangleBody] using hd
    exact absurd (hlevel.mp (hface c (bodyCovering_holeBody ▸ hc))) (by decide)

theorem polygonSearch_complete_iff_triangle :
    ∃ K, bodyAt K (ascii "i") (ascii "p") = some triangleBody ∧
      ∃ o K', exec sampleEnvironment ascending ⟨.polysearch, [ascii "i", triangleBody]⟩ K =
        some (o, K') ∧ Lists o (ascii "p") := by
  obtain ⟨K, hK, hx, hb⟩ := exists_sample covered_triangleBody
  have hquery := parsePolygon_triangleBody
  have hcell : leafOfOrigin.1 ∈ bodyCovering sampleEnvironment triangleBody := by
    simp [bodyCovering_triangleBody]
  have hself : Meets leafOfOrigin.1 leafOfOrigin.1 := Meets.refl _
  have hfound := polygonSearch_complete_iff hK hx hb hquery covered_triangleBody ascending
  refine ⟨K, hb, hfound.mpr (fun _ => ?_) ?_⟩
  · exact ⟨_, hcell, _, hcell, hself⟩
  · exact ⟨_, hcell, _, hcell, hself.1⟩

/-- A stored polygon is found by its own body, and two stored polygons find each other
or do not, at every level and also for coverings with face cells. -/
theorem polygonSearch_refl_symm (hK : ReachableStore env K) (hx : IndexExists K i)
    (hb : bodyAt K i p = some b) (hc : bodyAt K i q = some c) (ω ω' : Orders) :
    (∃ items, exec env ω ⟨.polysearch, [i, b]⟩ K = some (replyWithArray items, K) ∧
      some p ∈ items) ∧
    ∃ o o', exec env ω ⟨.polysearch, [i, b]⟩ K = some (o, K) ∧
      exec env ω' ⟨.polysearch, [i, c]⟩ K = some (o', K) ∧ (Lists o q ↔ Lists o' p) := by
  obtain ⟨A, h⟩ := hK.represents
  obtain ⟨⟨polygon, hpolygon⟩, hne⟩ := stored_body h hx hb
  obtain ⟨⟨polygon', hpolygon'⟩, hne'⟩ := stored_body h hx hc
  obtain ⟨names, hs, -, hmem⟩ := polygonSearch_reply h hx ω hpolygon hne
  obtain ⟨names', hs', -, hmem'⟩ := polygonSearch_reply h hx ω' hpolygon' hne'
  constructor
  · obtain ⟨cell, hcell⟩ := List.exists_mem_of_ne_nil _ hne
    refine ⟨_, hs, List.mem_map.mpr ⟨p, (hmem p).mpr ?_, rfl⟩⟩
    exact ⟨b, hb, cell, hcell, cell, hcell, Meets.refl cell⟩
  · refine ⟨_, _, hs, hs', ?_⟩
    rw [lists_map_some, lists_map_some, hmem, hmem']
    constructor
    · rintro ⟨c', hc', d, hd, e, he, hmeets⟩
      obtain rfl : c = c' := Option.some.inj (hc.symm.trans hc')
      exact ⟨b, hb, e, he, d, hd, hmeets.symm⟩
    · rintro ⟨b', hb', d, hd, e, he, hmeets⟩
      obtain rfl : b = b' := Option.some.inj (hb.symm.trans hb')
      exact ⟨c, hc, e, he, d, hd, hmeets.symm⟩

/-- Two polygons that are covered by the faces. -/
theorem polygonSearch_refl_symm_face :
    ∃ K, bodyAt K (ascii "i") (ascii "p") = some holeBody ∧
      bodyAt K (ascii "i") (ascii "q") = some largeBody ∧
      (∃ items, exec sampleEnvironment ascending ⟨.polysearch, [ascii "i", holeBody]⟩ K =
        some (replyWithArray items, K) ∧ some (ascii "p") ∈ items) ∧
      ∃ o o', exec sampleEnvironment ascending ⟨.polysearch, [ascii "i", holeBody]⟩ K =
          some (o, K) ∧
        exec sampleEnvironment ascending ⟨.polysearch, [ascii "i", largeBody]⟩ K = some (o', K) ∧
        (Lists o (ascii "q") ↔ Lists o' (ascii "p")) := by
  obtain ⟨K, hK, hx, hb, hc⟩ := exists_pair sampleEnvironment ascending plainName_i plainName_p
    plainName_q (by decide) (bodyTerms_eq_empty_iff.not.mpr covered_holeBody)
    (bodyTerms_eq_empty_iff.not.mpr covered_largeBody)
  exact ⟨K, hb, hc, polygonSearch_refl_symm hK hx hb hc ascending ascending⟩

/-! ### Nothing wrong and nothing stale -/

/-- Every item of an array reply is the name of a listed polygon whose current covering
overlaps the query; no item is there twice. -/
def SoundReply (env : Environment) (K : Keyspace Bytes) (i : Bytes)
    (Overlaps : S2CellId → Prop) (o : Outcome) : Prop :=
  ∀ items, o.reply = .array items → items.Nodup ∧ ∀ item ∈ items,
    ∃ p b, item = some p ∧ bodyAt K i p = some b ∧
      (∀ ω, ∃ listing, exec env ω ⟨.polylist, [i]⟩ K = some (replyWithArray listing, K) ∧
        some p ∈ listing) ∧
      ∃ c ∈ bodyCovering env b, Overlaps c

/-- All replies of searches with an accepted query are sound. -/
structure SearchesSound (env : Environment) (K : Keyspace Bytes) (i : Bytes) : Prop where
  polygon : ∀ {ω q polygon o K'}, parsePolygon env q = some polygon →
    exec env ω ⟨.polysearch, [i, q]⟩ K = some (o, K') →
    SoundReply env K i (fun c => ∃ d ∈ bodyCovering env q, c.SharesLeaf d) o
  point : ∀ {ω q point o K'}, parseLatLng env q = some point →
    exec env ω ⟨.pointsearch, [i, q]⟩ K = some (o, K') →
    SoundReply env K i (fun c => c.Contains (leafOf env point)) o

/-- Some search on the index returns the name. -/
def Returned (env : Environment) (K : Keyspace Bytes) (i p : Bytes) : Prop :=
  ∃ ω q o K', (exec env ω ⟨.polysearch, [i, q]⟩ K = some (o, K') ∨
    exec env ω ⟨.pointsearch, [i, q]⟩ K = some (o, K')) ∧ Lists o p

/-- A polygon with a body is listed, in whatever order. -/
theorem polylist_of_bodyAt (h : Represents env K A) (hx : IndexExists K i)
    (hb : bodyAt K i p = some b) (ω : Orders) :
    ∃ listing, exec env ω ⟨.polylist, [i]⟩ K = some (replyWithArray listing, K) ∧
      some p ∈ listing := by
  obtain ⟨m, hA⟩ := h.exists_polygons hx
  have hhash := h.asHash_polygons hx.accepted.notMem
  rw [Contents.polygons_of_some hA] at hhash
  rw [lookup_of_bodyAt h hx.accepted hA] at hb
  refine ⟨_, listPolygonsCommand_exists ω hx hhash, List.mem_map.mpr ⟨p, ?_, rfl⟩⟩
  rw [Enumeration.mem_list, Finmap.mem_keys]
  exact Finmap.mem_iff.mpr ⟨b, hb⟩

theorem soundReply_of_names (h : Represents env K A) (hx : IndexExists K i)
    {Overlaps : S2CellId → Prop} {names : List Bytes} (hnodup : names.Nodup)
    (hmem : ∀ p ∈ names, ∃ b, bodyAt K i p = some b ∧ ∃ c ∈ bodyCovering env b, Overlaps c) :
    SoundReply env K i Overlaps (replyWithArray (names.map some)) := by
  intro items hitems
  obtain rfl : names.map some = items := by simpa [replyWithArray] using hitems
  refine ⟨hnodup.map (Option.some_injective _), fun item hitem => ?_⟩
  obtain ⟨p, hp, rfl⟩ := List.mem_map.mp hitem
  obtain ⟨b, hb, hcell⟩ := hmem p hp
  exact ⟨p, b, rfl, hb, polylist_of_bodyAt h hx hb, hcell⟩

theorem searchesSound_of_represents (h : Represents env K A) (hx : IndexExists K i) :
    SearchesSound env K i where
  polygon {ω q polygon o K'} hq hs := by
    by_cases hne : bodyCovering env q = []
    · -- a query that covers nothing is refused
      rw [bodyCovering, hq] at hne
      obtain ⟨rfl, -⟩ := exec_unique hs (searchPolygonCommand_uncovered ω hx hq
        (indexPolygonForOverlapTest_eq_empty_iff.mpr hne))
      intro items hitems
      cases hitems
    · obtain ⟨names, hs', hnodup, hmem⟩ := polygonSearch_reply h hx ω hq hne
      obtain ⟨rfl, -⟩ := exec_unique hs hs'
      apply soundReply_of_names h hx hnodup
      intro p hp
      obtain ⟨b, hb, c, hc, d, hd, hmeets⟩ := (hmem p).mp hp
      exact ⟨b, hb, c, hc, d, hd, hmeets.1⟩
  point {ω q point o K'} hq hs := by
    obtain ⟨names, hs', hnodup, hmem⟩ := pointSearch_reply h hx ω hq
    obtain ⟨rfl, -⟩ := exec_unique hs hs'
    apply soundReply_of_names h hx hnodup
    intro p hp
    obtain ⟨b, hb, c, hc, hin, -⟩ := (hmem p).mp hp
    exact ⟨b, hb, c, hc, hin⟩

/-- A polygon without a body is returned by no search. -/
theorem not_returned (h : Represents env K A) (hx : IndexExists K i)
    (hb : bodyAt K i p = none) : ¬ Returned env K i p := by
  have hsound := searchesSound_of_represents h hx
  have hnone : ∀ {Overlaps : S2CellId → Prop} {o : Outcome}, SoundReply env K i Overlaps o →
      ¬ Lists o p := by
    rintro Overlaps o ho ⟨items, hitems, hp⟩
    obtain ⟨p', b, he, hb', -⟩ := (ho items hitems).2 _ hp
    obtain rfl : p = p' := Option.some.inj he
    rw [hb] at hb'
    cases hb'
  rintro ⟨ω, q, o, K', hs | hs, hl⟩
  · cases hq : parsePolygon env q with
    | none => exact not_lists_of_error hs (searchPolygonCommand_unparsed ω hx hq) hl
    | some polygon => exact hnone (hsound.polygon hq hs) hl
  · cases hq : parseLatLng env q with
    | none => exact not_lists_of_error hs (searchPointCommand_unparsed ω hx hq) hl
    | some point => exact hnone (hsound.point hq hs) hl

/-- The searches return current polygons only. After a deletion, an overwriting or a
recreation of the index the earlier body does not count any more. -/
theorem searches_sound (hK : ReachableStore env K) (hi : NulFree i) (hx : IndexExists K i) :
    SearchesSound env K i ∧
    (∀ ω p o K', NulFree p → exec env ω ⟨.polydel, [i, p]⟩ K = some (o, K') →
      SearchesSound env K' i ∧ ¬ Returned env K' i p) ∧
    (∀ ω p b K', NulFree p →
      exec env ω ⟨.polyset, [i, p, b]⟩ K = some (replyWithLongLong 1, K') →
      SearchesSound env K' i ∧ bodyAt K' i p = some b) ∧
    ∀ ω ω' p o o' K₁ K₂, exec env ω ⟨.idel, [i]⟩ K = some (o, K₁) →
      exec env ω' ⟨.iset, [i]⟩ K₁ = some (o', K₂) →
      SearchesSound env K₂ i ∧ ¬ Returned env K₂ i p := by
  obtain ⟨A, h⟩ := hK.represents
  obtain ⟨m, hA⟩ := h.exists_polygons hx
  have hcs : cString i = i := cString_eq_self hi
  have hr : ¬ Refused i := (accepted_iff_not_refused hi).mp hx.accepted
  -- the body in a later keyspace that stands for contents with the index
  have hlater : ∀ {K' A' m'}, Represents env K' A' → A' i = some m' →
      IndexExists K' i ∧ ∀ p, bodyAt K' i p = m'.lookup p := by
    intro K' A' m' h' hA'
    rw [← hcs] at hA'
    exact ⟨h'.indexExists hx.accepted hA', fun p => lookup_of_bodyAt h' hx.accepted hA'⟩
  rw [hcs] at hA
  refine ⟨searchesSound_of_represents h hx, ?_, ?_, ?_⟩
  · intro ω p o K' hp he
    obtain ⟨-, h'⟩ := h.of_exec ω (.polydel i p) (by simp [MapCommand.names, hi, hp]) he
    obtain ⟨m', hA', hl⟩ := mapStep_polydel h.wellFormed hr hp hA
    obtain ⟨hx', hbody⟩ := hlater h' hA'
    exact ⟨searchesSound_of_represents h' hx', not_returned h' hx' (by rw [hbody, hl])⟩
  · intro ω p b K' hp he
    obtain ⟨ho, h'⟩ := h.of_exec ω (.polyset i p b) (by simp [MapCommand.names, hi, hp]) he
    obtain ⟨m', hA', hl⟩ := mapStep_polyset ho.eq_integer
    obtain ⟨hx', hbody⟩ := hlater h' hA'
    exact ⟨searchesSound_of_represents h' hx', by rw [hbody, hl]⟩
  · intro ω ω' p o o' K₁ K₂ he he'
    obtain ⟨-, h₁⟩ := h.of_exec ω (.idel i) (by simp [MapCommand.names, hi]) he
    obtain ⟨-, h₂⟩ := h₁.of_exec ω' (.iset i) (by simp [MapCommand.names, hi]) he'
    obtain ⟨hx', hbody⟩ := hlater h₂ (mapStep_idel_iset hr hA)
    exact ⟨searchesSound_of_represents h₂ hx', not_returned h₂ hx' (by rw [hbody]; rfl)⟩

theorem searches_sound_triangle :
    ∃ K, bodyAt K (ascii "i") (ascii "p") = some triangleBody ∧
      SearchesSound sampleEnvironment K (ascii "i") ∧
      ∀ ω o K', exec sampleEnvironment ω ⟨.polydel, [ascii "i", ascii "p"]⟩ K = some (o, K') →
        ¬ Returned sampleEnvironment K' (ascii "i") (ascii "p") := by
  obtain ⟨K, hK, hx, hb⟩ := exists_sample covered_triangleBody
  obtain ⟨hsound, hdel, -⟩ := searches_sound hK (by decide) hx
  exact ⟨K, hb, hsound, fun ω o K' he => (hdel ω _ o K' (by decide) he).2⟩

end RedisS2Geo.Guarantees
