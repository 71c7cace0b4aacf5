import RedisS2Geo.Store.SelfTest

/-!
# The picture of the test data

An environment in which the polygons of the self test lie as they do in their picture. Each
of them covers quarters of one face, so that overlapping is read off lists of quarters.
-/

namespace RedisS2Geo.Guarantees
open Foundation Source Covering Store

/-- A quarter of the first face. -/
def quarter (d : Fin 4) : S2CellId := ⟨leafOfOrigin.1.root, [d], by simp [kMaxLevel]⟩

/-- A leaf of a face inside the child at this position. -/
def leafBelow (f : Fin 6) (d : Fin 4) : {cellId : S2CellId // cellId.IsLeaf} :=
  ⟨⟨f, List.replicate kMaxLevel d, by simp⟩, List.length_replicate⟩

/-- The quarters that a polygon covers. -/
def quarters : TestPolygon → List (Fin 4)
  | .red => (List.finRange 4).drop 1
  | .green => ((List.finRange 4).drop 1).take 1
  | .blue => (List.finRange 4).take 1
  | .yellow => (List.finRange 4).drop 3

/-- The test data on the first face: a polygon is told by one of its longitudes and covers its
quarters, all other bodies cover the whole face, and the circle is on another face. -/
def pictureEnvironment : Environment where
  Double := Bytes
  indeterminate := []
  strtod s := (numeral s, (numeral s).length)
  LatLng := Bytes × Bytes
  fromDegrees latitude longitude := (latitude, longitude)
  isValid _ := true
  Point := Bytes × Bytes
  toPoint := id
  pointEq a b := decide (a = b)
  getCovering _ polygon :=
    let touches (longitude : String) := polygon.loops.flatten.any (·.2 = ascii longitude)
    if touches "-109.072265625" then (quarters .red).map quarter
    else if touches "-104.12841796875" then (quarters .green).map quarter
    else if touches "-97.734375" then (quarters .blue).map quarter
    else if touches "-107.57812499999999" then (quarters .yellow).map quarter
    else (List.finRange 4).map quarter
  cellIdOfPoint point :=
    if point.2 = ascii "-103.798828125" then leafOfOrigin
    else if point.2 = ascii "-107.1826171875" then leafBelow leafOfOrigin.1.root (Fin.last 3)
    else leafBelow (Fin.last 5) (Fin.last 3)

theorem bodyCovering_picture (idx : TestPolygon) :
    bodyCovering pictureEnvironment (kPolygonBody idx) = (quarters idx).map quarter := by
  cases idx <;> decide +kernel

theorem bodyCovering_surrounding :
    bodyCovering pictureEnvironment surroundingBody = (List.finRange 4).map quarter := by
  decide +kernel

theorem covered_picture (idx : TestPolygon) :
    bodyCovering pictureEnvironment (kPolygonBody idx) ≠ [] := by
  rw [bodyCovering_picture, ne_eq, List.map_eq_nil_iff]
  cases idx <;> decide

theorem contains_quarter {d d' : Fin 4} : (quarter d).Contains (quarter d') ↔ d = d' := by
  simp [Cell.Contains, quarter]

/-- Lists of quarters overlap in a common quarter. -/
theorem overlaps_quarters {l l' : List (Fin 4)} :
    Overlaps (l.map quarter) (l'.map quarter) ↔ ∃ d ∈ l, d ∈ l' := by
  have hmeets : ∀ d d', Meets (quarter d) (quarter d') ↔ d = d' := by
    intro d d'
    rw [meets_iff, contains_quarter, contains_quarter, @eq_comm _ d' d, or_self]
    exact and_iff_left Iff.rfl
  simp [overlaps_iff, hmeets]

/-- Quarters hold the leaves of the first face inside them. -/
theorem leaf_mem_quarters {l : List (Fin 4)} (leaf : {cellId : S2CellId // cellId.IsLeaf}) :
    ↑leaf ∈ innerRegion (l.map quarter) ↔ ∃ d ∈ l, (quarter d).Contains leaf := by
  have hlevel : ∀ d, 1 ≤ (quarter d).level := fun _ => le_rfl
  rw [mem_innerRegion leaf.2]
  simp [hlevel]

theorem pointMeets_picture {point : TestPoint} {latLng : Bytes × Bytes}
    {found : Finset TestPolygon}
    (hparse : parseLatLng pictureEnvironment (kPointBody point) = some latLng)
    (hfound : ∀ idx ∈ testPolygonList, (∃ d ∈ quarters idx,
      (quarter d).Contains (pictureEnvironment.cellIdOfPoint latLng)) ↔ idx ∈ found) :
    PointMeets pictureEnvironment point found := by
  refine ⟨latLng, hparse, fun idx => ?_⟩
  change ↑(pictureEnvironment.cellIdOfPoint latLng) ∈ innerRegion _ ↔ _
  rw [bodyCovering_picture, leaf_mem_quarters, hfound idx (mem_testPolygonList idx)]

theorem queryMeets_picture {q : Bytes} {l : List (Fin 4)} {found : Finset TestPolygon}
    (hq : bodyCovering pictureEnvironment q = l.map quarter) (hl : l ≠ [])
    (hfound : ∀ idx ∈ testPolygonList, (∃ d ∈ quarters idx, d ∈ l) ↔ idx ∈ found) :
    QueryMeets pictureEnvironment q found := by
  refine ⟨by simpa [hq] using hl, fun idx => ?_⟩
  change Overlaps _ _ ↔ _
  rw [hq, bodyCovering_picture, overlaps_quarters, hfound idx (mem_testPolygonList idx)]

end RedisS2Geo.Guarantees
