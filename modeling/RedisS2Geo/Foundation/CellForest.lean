import Mathlib.Data.Finset.Card
import Mathlib.Data.List.Basic
import Mathlib.Data.Nat.Find
import Mathlib.Order.Nat

/-!
# Cells of a forest of bounded depth

A cell is a root and the path of digits leading to it. Its leaves are the cells
of full depth below it. Two cells share a leaf exactly when one of them contains
the other, which is the nesting law of every hierarchical grid.
-/

namespace RedisS2Geo.Foundation

/-- A cell of a forest with roots `R`, branching digits `D` and the given depth. -/
@[ext]
structure Cell (R D : Type*) (depth : Nat) where
  root : R
  path : List D
  level_le : path.length ≤ depth
  deriving DecidableEq

namespace Cell

variable {R D : Type*} {depth : Nat}

/-- The number of digits below the root. -/
def level (c : Cell R D depth) : Nat := c.path.length

/-- A cell without children. -/
def IsLeaf (c : Cell R D depth) : Prop := c.level = depth

/-- The second cell lies inside the first one, which may be the same cell. -/
def Contains (c d : Cell R D depth) : Prop := c.root = d.root ∧ c.path <+: d.path

/-- Some leaf lies inside both cells. -/
def SharesLeaf (c d : Cell R D depth) : Prop :=
  ∃ l : Cell R D depth, l.IsLeaf ∧ c.Contains l ∧ d.Contains l

instance [DecidableEq R] [DecidableEq D] (c d : Cell R D depth) : Decidable (c.Contains d) :=
  inferInstanceAs (Decidable (_ ∧ _))

@[refl] theorem contains_refl (c : Cell R D depth) : c.Contains c :=
  ⟨rfl, List.prefix_refl _⟩

theorem Contains.trans {c d e : Cell R D depth} (h : c.Contains d) (h' : d.Contains e) :
    c.Contains e :=
  ⟨h.1.trans h'.1, h.2.trans h'.2⟩

/-- A cell contains only one cell of its own level. -/
theorem Contains.eq_of_level {c d : Cell R D depth} (h : c.Contains d)
    (hl : d.level ≤ c.level) : c = d :=
  Cell.ext h.1 (h.2.eq_of_length (le_antisymm h.2.length_le hl))

/-- The cell of a given level around a cell; the cell itself from its own level on. -/
def ancestor (c : Cell R D depth) (n : Nat) : Cell R D depth :=
  ⟨c.root, c.path.take n, (List.length_take_le' n _).trans c.level_le⟩

theorem level_ancestor {c : Cell R D depth} {n : Nat} (h : n ≤ c.level) :
    (c.ancestor n).level = n :=
  List.length_take_of_le h

theorem ancestor_contains (c : Cell R D depth) (n : Nat) : (c.ancestor n).Contains c :=
  ⟨rfl, List.take_prefix _ _⟩

/-- A containing cell is the ancestor of its own level. -/
theorem Contains.ancestor_eq {c d : Cell R D depth} (h : c.Contains d) :
    d.ancestor c.level = c :=
  Cell.ext h.1.symm (List.prefix_iff_eq_take.mp h.2).symm

/-- An ancestor of an ancestor is the ancestor of the smaller level. -/
theorem ancestor_ancestor (c : Cell R D depth) {m n : Nat} (h : m ≤ n) :
    (c.ancestor n).ancestor m = c.ancestor m :=
  Cell.ext rfl (by simp [ancestor, List.take_take, Nat.min_eq_left h])

theorem ancestor_zero_eq_iff {c d : Cell R D depth} :
    c.ancestor 0 = d.ancestor 0 ↔ c.root = d.root := by
  simp [ancestor]

/-- Two cells that contain a common cell are nested. -/
theorem Contains.nested {c d e : Cell R D depth} (h : c.Contains e) (h' : d.Contains e) :
    c.Contains d ∨ d.Contains c := by
  rcases List.prefix_or_prefix_of_prefix h.2 h'.2 with hp | hp
  · exact Or.inl ⟨h.1.trans h'.1.symm, hp⟩
  · exact Or.inr ⟨h'.1.trans h.1.symm, hp⟩

theorem exists_leaf [Nonempty D] (c : Cell R D depth) :
    ∃ l : Cell R D depth, l.IsLeaf ∧ c.Contains l := by
  obtain ⟨x⟩ := ‹Nonempty D›
  have hlen : (c.path ++ List.replicate (depth - c.level) x).length = depth := by
    have := c.level_le
    simp [level]
    omega
  exact ⟨⟨c.root, c.path ++ List.replicate (depth - c.level) x, hlen.le⟩, hlen,
    rfl, List.prefix_append _ _⟩

/-- Sharing a leaf is nesting. -/
theorem sharesLeaf_iff [Nonempty D] {c d : Cell R D depth} :
    c.SharesLeaf d ↔ c.Contains d ∨ d.Contains c := by
  constructor
  · rintro ⟨l, -, hc, hd⟩
    exact hc.nested hd
  · rintro (h | h)
    · obtain ⟨l, hl, hd⟩ := d.exists_leaf
      exact ⟨l, hl, h.trans hd, hd⟩
    · obtain ⟨l, hl, hc⟩ := c.exists_leaf
      exact ⟨l, hl, hc, h.trans hc⟩

/-! ### Common ancestors -/

section CommonLevel
variable [DecidableEq R] [DecidableEq D] {c d : Cell R D depth}

/-- The deepest level at which two cells of one root have the same ancestor. -/
def commonLevel (c d : Cell R D depth) : Nat :=
  Nat.findGreatest (fun n => c.ancestor n = d.ancestor n) depth

theorem commonLevel_le (c d : Cell R D depth) : c.commonLevel d ≤ depth :=
  Nat.findGreatest_le depth

/-- Two cells of one root have the same ancestors down to their common level. -/
theorem ancestor_eq_iff (hroot : c.root = d.root) {n : Nat} (hn : n ≤ depth) :
    c.ancestor n = d.ancestor n ↔ n ≤ c.commonLevel d := by
  constructor
  · intro h
    exact Nat.le_findGreatest hn h
  · intro h
    have hcommon : c.ancestor (c.commonLevel d) = d.ancestor (c.commonLevel d) :=
      Nat.findGreatest_spec (P := fun n => c.ancestor n = d.ancestor n) (Nat.zero_le depth)
        (ancestor_zero_eq_iff.mpr hroot)
    rw [← c.ancestor_ancestor h, hcommon, d.ancestor_ancestor h]

/-- The number of levels at which two cells have the same ancestor. -/
theorem card_commonLevels (c d : Cell R D depth) :
    ((Finset.range (depth + 1)).filter fun n => c.ancestor n = d.ancestor n).card =
      if c.root = d.root then c.commonLevel d + 1 else 0 := by
  split
  · have hbound := c.commonLevel_le d
    have hlevels : ((Finset.range (depth + 1)).filter fun n => c.ancestor n = d.ancestor n) =
        Finset.range (c.commonLevel d + 1) := by
      ext n
      rw [Finset.mem_filter, Finset.mem_range, Finset.mem_range]
      constructor
      · rintro ⟨hn, h⟩
        exact Nat.lt_succ_of_le ((ancestor_eq_iff ‹_› (by omega)).mp h)
      · intro hn
        exact ⟨by omega, (ancestor_eq_iff ‹_› (by omega)).mpr (by omega)⟩
    rw [hlevels, Finset.card_range]
  · rw [Finset.card_eq_zero, Finset.filter_eq_empty_iff]
    intro n _ h
    exact ‹¬ c.root = d.root› (Cell.ext_iff.mp h).1

end CommonLevel

end Cell

end RedisS2Geo.Foundation
