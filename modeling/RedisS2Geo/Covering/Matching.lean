import RedisS2Geo.Covering.Terms

/-!
# When a stored covering and a query share a term

Sharing a term is nesting of cells, except that a face cell is found only by a
face cell: the terms of a smaller cell name its face by the bare digit, while the
face cell itself is stored and looked up under its digit and a slash.
-/

namespace RedisS2Geo.Covering
open Foundation Source

/-- The relation that the terms of two cells decide: nesting between two face cells
or between two cells below the faces. -/
def Meets (c d : S2CellId) : Prop := c.SharesLeaf d ∧ (c.level = 0 ↔ d.level = 0)

theorem meets_iff {c d : S2CellId} :
    Meets c d ↔ (c.Contains d ∨ d.Contains c) ∧ (c.level = 0 ↔ d.level = 0) := by
  rw [Meets, Cell.sharesLeaf_iff]

theorem Meets.refl (c : S2CellId) : Meets c c :=
  meets_iff.mpr ⟨Or.inl (Cell.contains_refl c), Iff.rfl⟩

/-- Stored terms star the ancestors and query terms do not, yet the relation they
decide is symmetric. -/
theorem Meets.symm {c d : S2CellId} (h : Meets c d) : Meets d c := by
  rw [meets_iff] at h ⊢
  exact ⟨h.1.symm, h.2.symm⟩

/-- A containing cell below the face is met through its plain name. -/
theorem queryTerm_of_contains {c d : S2CellId} (h : c.Contains d) (hc : 1 ≤ c.level) :
    QueryTerm d (cellIdToString c) := by
  rcases Nat.lt_or_ge c.level d.level with hlt | hge
  · exact Or.inr (Or.inr (Or.inl ⟨c.level, hc, hlt, by rw [h.ancestor_eq]⟩))
  · rw [h.eq_of_level hge]
    exact Or.inl rfl

/-- A contained cell is met through the starred name of the containing one. -/
theorem storedTerm_of_contains {c d : S2CellId} (h : d.Contains c) (hd : 1 ≤ d.level) :
    StoredTerm c (starred (cellIdToString d)) := by
  rcases Nat.lt_or_ge d.level c.level with hlt | hge
  · exact Or.inr (Or.inr (Or.inl ⟨d.level, hd, hlt, by rw [h.ancestor_eq]⟩))
  · rw [h.eq_of_level hge]
    exact Or.inr (Or.inr (Or.inr rfl))

theorem meets_ancestor {c : S2CellId} {n : Nat} (h1 : 1 ≤ n) (hn : n < c.level) :
    Meets (c.ancestor n) c := by
  have hl := Cell.level_ancestor hn.le
  exact meets_iff.mpr ⟨Or.inl (c.ancestor_contains n), by omega⟩

/-- The stored terms of one cell meet the query terms of another one exactly when the
cells are nested and both or neither are faces. -/
theorem exists_term_iff (c d : S2CellId) :
    (∃ t, StoredTerm c t ∧ QueryTerm d t) ↔ Meets c d := by
  constructor
  · rintro ⟨t, rfl | rfl | ⟨n, h1, hn, rfl⟩ | rfl, hq⟩
    · -- the plain name of the stored cell
      rcases queryTerm_toString_iff.mp hq with rfl | ⟨m, h1, hm, rfl⟩
      · exact Meets.refl c
      · exact meets_ancestor h1 hm
    · -- the starred face digit names no cell
      exact absurd (queryTerm_starred_iff.mp hq).symm (toString_ne_face d _)
    · -- a starred proper ancestor of the stored cell
      obtain rfl := toString_inj.mp (queryTerm_starred_iff.mp hq)
      exact (meets_ancestor h1 hn).symm
    · -- the starred name of the stored cell
      obtain rfl := toString_inj.mp (queryTerm_starred_iff.mp hq)
      exact Meets.refl c
  · intro h
    obtain ⟨hn, hl⟩ := meets_iff.mp h
    by_cases hc : c.level = 0
    · have hd := hl.mp hc
      obtain rfl : c = d := by
        rcases hn with hn | hn
        · exact hn.eq_of_level (by omega)
        · exact (hn.eq_of_level (by omega)).symm
      exact ⟨_, Or.inl rfl, Or.inl rfl⟩
    · have hd : d.level ≠ 0 := fun h0 => hc (hl.mpr h0)
      rcases hn with hn | hn
      · exact ⟨_, Or.inl rfl, queryTerm_of_contains hn (by omega)⟩
      · exact ⟨_, storedTerm_of_contains hn (by omega), Or.inr (Or.inr (Or.inr rfl))⟩

/-- The stored terms of a cell meet the terms of a leaf exactly when the cell contains
the leaf and is not a face. -/
theorem exists_pointTerm_iff (c : S2CellId) {l : S2CellId} (hl : l.IsLeaf) :
    (∃ t, StoredTerm c t ∧ PointTerm l t) ↔ c.Contains l ∧ 1 ≤ c.level := by
  have hlevel : l.level = 30 := hl
  constructor
  · rintro ⟨t, hs, hp⟩
    rcases hp with rfl | ⟨n, h1, hn, rfl⟩ | rfl
    · exact absurd hs (not_storedTerm_face c _)
    · obtain rfl := storedTerm_toString_iff.mp hs
      rw [Cell.level_ancestor hn.le]
      exact ⟨l.ancestor_contains n, h1⟩
    · obtain rfl := storedTerm_toString_iff.mp hs
      exact ⟨Cell.contains_refl l, by omega⟩
  · rintro ⟨hc, h1⟩
    refine ⟨cellIdToString c, Or.inl rfl, ?_⟩
    rcases Nat.lt_or_ge c.level l.level with hlt | hge
    · exact Or.inr (Or.inl ⟨c.level, h1, hlt, by rw [hc.ancestor_eq]⟩)
    · rw [hc.eq_of_level hge]
      exact Or.inr (Or.inr rfl)

/-- A cell meets a leaf exactly when it contains the leaf and is not a face. -/
theorem meets_leaf_iff (c : S2CellId) {l : S2CellId} (hl : l.IsLeaf) :
    Meets c l ↔ c.Contains l ∧ 1 ≤ c.level := by
  have hlevel : l.level = 30 := hl
  rw [meets_iff]
  constructor
  · rintro ⟨h | h, hface⟩
    · exact ⟨h, by omega⟩
    · obtain rfl := h.eq_of_level (hlevel ▸ c.level_le)
      exact ⟨h, by omega⟩
  · rintro ⟨h, h1⟩
    exact ⟨Or.inl h, by omega⟩

/-! ### Coverings -/

section Cells
variable {cells cells' : List S2CellId}

/-- Two coverings share a term exactly when two of their cells meet. -/
theorem storedTerms_meets_iff :
    (∃ t ∈ storedTerms cells, t ∈ queryTerms cells') ↔
      ∃ c ∈ cells, ∃ d ∈ cells', Meets c d := by
  simp only [mem_storedTerms, mem_queryTerms, ← exists_term_iff]
  constructor
  · rintro ⟨t, ⟨c, hc, hs⟩, d, hd, hq⟩
    exact ⟨c, hc, d, hd, t, hs, hq⟩
  · rintro ⟨c, hc, d, hd, t, hs, hq⟩
    exact ⟨t, ⟨c, hc, hs⟩, d, hd, hq⟩

/-- A covering shares a term with a leaf exactly when one of its cells below the faces
contains the leaf. -/
theorem storedTerms_meets_leaf_iff {l : S2CellId} (hl : l.IsLeaf) :
    (∃ t ∈ storedTerms cells, t ∈ indexLeaf l) ↔
      ∃ c ∈ cells, c.Contains l ∧ 1 ≤ c.level := by
  simp only [mem_storedTerms, mem_indexLeaf, ← exists_pointTerm_iff _ hl]
  constructor
  · rintro ⟨t, ⟨c, hc, hs⟩, hp⟩
    exact ⟨c, hc, t, hs, hp⟩
  · rintro ⟨c, hc, t, hs, hp⟩
    exact ⟨t, ⟨c, hc, hs⟩, hp⟩

end Cells

section Coverings
variable {env : Environment} {p q : Option (S2Polygon env.Point)}

/-- A stored polygon is found by a query polygon exactly when two cells of their
coverings meet. -/
theorem indexPolygon_meets_iff :
    (∃ t ∈ indexPolygon env p, t ∈ indexPolygonForOverlapTest env q) ↔
      ∃ c ∈ getPolygonCovering env p, ∃ d ∈ getPolygonCovering env q, Meets c d := by
  rw [indexPolygon_eq, indexPolygonForOverlapTest_eq, storedTerms_meets_iff]

/-- A stored polygon is found by a query point exactly when a cell of its covering
below the faces contains the leaf of the point. -/
theorem indexPolygon_meets_point_iff {latLng : env.LatLng} :
    (∃ t ∈ indexPolygon env p, t ∈ indexPoint env (some latLng)) ↔
      ∃ c ∈ getPolygonCovering env p,
        c.Contains (env.cellIdOfPoint (env.toPoint latLng)) ∧ 1 ≤ c.level := by
  rw [indexPolygon_eq, indexPoint, storedTerms_meets_leaf_iff]
  exact (env.cellIdOfPoint (env.toPoint latLng)).2

theorem nulFree_of_mem_indexPolygon {t : Bytes} (h : t ∈ indexPolygon env p) : NulFree t := by
  obtain ⟨c, -, hs⟩ := mem_indexPolygon.mp h
  exact hs.nulFree

theorem nulFree_of_mem_indexPolygonForOverlapTest {t : Bytes}
    (h : t ∈ indexPolygonForOverlapTest env q) : NulFree t := by
  obtain ⟨c, -, hs⟩ := mem_indexPolygonForOverlapTest.mp h
  exact hs.nulFree

theorem nulFree_of_mem_indexPoint {t : Bytes} {latLng : env.LatLng}
    (h : t ∈ indexPoint env (some latLng)) : NulFree t :=
  ((mem_indexLeaf _ _).mp h).nulFree

/-- The terms that polygons are stored under and that polygons and points are looked up
with. -/
def cellTerms (env : Environment) : Set Bytes :=
  {t | (∃ polygon, t ∈ indexPolygon env polygon) ∨
    (∃ polygon, t ∈ indexPolygonForOverlapTest env polygon) ∨ ∃ latLng, t ∈ indexPoint env latLng}

theorem nulFree_of_mem_cellTerms {t : Bytes} (h : t ∈ cellTerms env) : NulFree t := by
  rcases h with ⟨polygon, h⟩ | ⟨polygon, h⟩ | ⟨latLng, h⟩
  · exact nulFree_of_mem_indexPolygon h
  · exact nulFree_of_mem_indexPolygonForOverlapTest h
  · cases latLng with
    | none => simp [indexPoint] at h
    | some latLng => exact nulFree_of_mem_indexPoint h

theorem indexPoint_ne_empty (latLng : env.LatLng) : indexPoint env (some latLng) ≠ ∅ := by
  intro h
  have hmem : [digit (env.cellIdOfPoint (env.toPoint latLng)).1.root] ∈
      indexPoint env (some latLng) := (mem_indexLeaf _ _).mpr (Or.inl rfl)
  simp [h] at hmem

end Coverings

end RedisS2Geo.Covering
