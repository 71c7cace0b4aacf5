import Mathlib.Data.Set.Basic
import RedisS2Geo.Foundation.CellForest

/-!
# The region of a list of cells

Cells stand for the leaves inside them. Two lists of cells overlap when their regions
do, and this depends on the regions alone: neither order nor repetitions count, nor
whether a region is written with large cells or with their descendants.
-/

namespace RedisS2Geo.Foundation

variable {R D : Type*} {depth : Nat}

/-- The leaves inside some cell of a list. -/
def leafRegion (cells : List (Cell R D depth)) : Set (Cell R D depth) :=
  {l | l.IsLeaf ∧ ∃ c ∈ cells, c.Contains l}

variable {cells cells' : List (Cell R D depth)} {l : Cell R D depth}

theorem mem_leafRegion (hl : l.IsLeaf) : l ∈ leafRegion cells ↔ ∃ c ∈ cells, c.Contains l :=
  and_iff_right hl

/-- More cells have a larger region. -/
theorem leafRegion_mono (h : cells ⊆ cells') : leafRegion cells ⊆ leafRegion cells' := by
  rintro l ⟨hl, c, hc, hin⟩
  exact ⟨hl, c, h hc, hin⟩

/-- Two regions overlap exactly when two of their cells share a leaf. -/
theorem leafRegion_inter_nonempty_iff :
    (leafRegion cells ∩ leafRegion cells').Nonempty ↔
      ∃ c ∈ cells, ∃ d ∈ cells', c.SharesLeaf d := by
  constructor
  · rintro ⟨l, ⟨hl, c, hc, hcl⟩, -, d, hd, hdl⟩
    exact ⟨c, hc, d, hd, l, hl, hcl, hdl⟩
  · rintro ⟨c, hc, d, hd, l, hl, hcl, hdl⟩
    exact ⟨l, ⟨hl, c, hc, hcl⟩, hl, d, hd, hdl⟩

end RedisS2Geo.Foundation
