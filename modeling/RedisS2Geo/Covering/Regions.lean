import RedisS2Geo.Covering.Matching
import RedisS2Geo.Foundation.CellRegions

/-!
# Searches over regions

The cells of a covering fall into faces and cells below the faces. The terms compare
faces with faces and the region of the other cells with the region of the other cells.
-/

namespace RedisS2Geo.Covering
open Foundation Source

/-- The leaves inside the face cells of a covering. -/
def faceRegion (cells : List S2CellId) : Set S2CellId := leafRegion (cells.filter (·.level = 0))

/-- The leaves inside the cells of a covering below the faces. -/
def innerRegion (cells : List S2CellId) : Set S2CellId := leafRegion (cells.filter (·.level ≠ 0))

/-- What the terms of two coverings decide: an overlap of the faces or of the rest. -/
def Overlaps (cells cells' : List S2CellId) : Prop :=
  (faceRegion cells ∩ faceRegion cells').Nonempty ∨
    (innerRegion cells ∩ innerRegion cells').Nonempty

variable {cells cells' : List S2CellId}

theorem overlaps_iff : Overlaps cells cells' ↔ ∃ c ∈ cells, ∃ d ∈ cells', Meets c d := by
  simp only [Overlaps, faceRegion, innerRegion, leafRegion_inter_nonempty_iff, List.mem_filter,
    decide_eq_true_eq]
  constructor
  · rintro (⟨c, ⟨hc, hc0⟩, d, ⟨hd, hd0⟩, h⟩ | ⟨c, ⟨hc, hc0⟩, d, ⟨hd, hd0⟩, h⟩)
    · exact ⟨c, hc, d, hd, h, iff_of_true hc0 hd0⟩
    · exact ⟨c, hc, d, hd, h, iff_of_false hc0 hd0⟩
  · rintro ⟨c, hc, d, hd, h, hlevel⟩
    by_cases hc0 : c.level = 0
    · exact Or.inl ⟨c, ⟨hc, hc0⟩, d, ⟨hd, hlevel.mp hc0⟩, h⟩
    · exact Or.inr ⟨c, ⟨hc, hc0⟩, d, ⟨hd, hlevel.not.mp hc0⟩, h⟩

/-- A covering holds a leaf below the faces exactly when a cell that is no face does. -/
theorem mem_innerRegion {l : S2CellId} (hl : l.IsLeaf) :
    l ∈ innerRegion cells ↔ ∃ c ∈ cells, c.Contains l ∧ 1 ≤ c.level := by
  rw [innerRegion, mem_leafRegion hl]
  simp only [List.mem_filter, decide_eq_true_eq, Nat.one_le_iff_ne_zero]
  constructor
  · rintro ⟨c, ⟨hc, h0⟩, h⟩
    exact ⟨c, hc, h, h0⟩
  · rintro ⟨c, hc, h, h0⟩
    exact ⟨c, ⟨hc, h0⟩, h⟩

theorem faceRegion_mono (h : cells ⊆ cells') : faceRegion cells ⊆ faceRegion cells' :=
  leafRegion_mono (List.filter_subset _ h)

theorem innerRegion_mono (h : cells ⊆ cells') : innerRegion cells ⊆ innerRegion cells' :=
  leafRegion_mono (List.filter_subset _ h)

/-- A larger query overlaps with more. -/
theorem Overlaps.mono {query query' : List S2CellId} (h : Overlaps cells query)
    (hface : faceRegion query ⊆ faceRegion query')
    (hinner : innerRegion query ⊆ innerRegion query') : Overlaps cells query' :=
  h.imp (fun hf => hf.mono (Set.inter_subset_inter_right _ hface))
    fun hi => hi.mono (Set.inter_subset_inter_right _ hinner)

end RedisS2Geo.Covering
