import RedisS2Geo.Covering.Terms

/-!
# The terms of a leaf, level by level

The terms of a leaf are its ancestors written out, one for each level. The face is
the first byte of the name and every other ancestor a longer prefix, so that a term
tells its level by its length.
-/

namespace RedisS2Geo.Covering
open Foundation Source

variable {c d l l' : S2CellId} {m n : Nat} {t : Bytes}

/-- The term of a cell for one level: the digit of the face, below it the name of the
ancestor. -/
def levelTerm (c : S2CellId) (n : Nat) : Bytes :=
  if n = 0 then [digit c.root] else cellIdToString (c.ancestor n)

@[simp] theorem levelTerm_zero (c : S2CellId) : levelTerm c 0 = [digit c.root] := rfl

theorem levelTerm_of_pos (c : S2CellId) (hn : 1 ≤ n) :
    levelTerm c n = cellIdToString (c.ancestor n) :=
  if_neg (by omega)

theorem levelTerm_prefix (c : S2CellId) (n : Nat) : levelTerm c n <+: cellIdToString c := by
  cases n with
  | zero => exact List.take_prefix 1 (cellIdToString c)
  | succ n =>
      rw [levelTerm_of_pos c (by omega), ← take_toString]
      exact List.take_prefix _ _

theorem length_levelTerm (hn : n ≤ c.level) :
    (levelTerm c n).length = if n = 0 then 1 else n + 2 := by
  unfold levelTerm
  split
  · rfl
  · rw [length_toString, Cell.level_ancestor hn]

/-- Terms of different levels differ, and terms of one level are equal when the ancestors
are. -/
theorem levelTerm_eq_iff (hm : m ≤ c.level) (hn : n ≤ d.level) :
    levelTerm c m = levelTerm d n ↔ m = n ∧ c.ancestor n = d.ancestor n := by
  constructor
  · intro h
    have hlen := congrArg List.length h
    rw [length_levelTerm hm, length_levelTerm hn] at hlen
    obtain rfl : m = n := by
      split at hlen <;> split at hlen <;> omega
    refine ⟨rfl, ?_⟩
    cases m with
    | zero =>
        have hdigit : digit c.root = digit d.root := by simpa using h
        exact Cell.ancestor_zero_eq_iff.mpr (digit_injective (by decide) hdigit)
    | succ m =>
        rw [levelTerm_of_pos c (by omega), levelTerm_of_pos d (by omega)] at h
        exact toString_inj.mp h
  · rintro ⟨rfl, h⟩
    cases m with
    | zero => rw [levelTerm_zero, levelTerm_zero, Cell.ancestor_zero_eq_iff.mp h]
    | succ m => rw [levelTerm_of_pos c (by omega), levelTerm_of_pos d (by omega), h]

/-- The three insertions of `IndexPoint` cover every level once. -/
theorem pointTerm_iff (hc : 1 ≤ c.level) : PointTerm c t ↔ ∃ n ≤ c.level, t = levelTerm c n := by
  have hself : c.ancestor c.level = c := (Cell.contains_refl c).ancestor_eq
  constructor
  · rintro (rfl | ⟨n, h1, hn, rfl⟩ | rfl)
    · exact ⟨0, Nat.zero_le _, rfl⟩
    · exact ⟨n, hn.le, (levelTerm_of_pos c h1).symm⟩
    · exact ⟨c.level, le_rfl, by rw [levelTerm_of_pos c hc, hself]⟩
  · rintro ⟨n, hn, rfl⟩
    rcases Nat.eq_zero_or_pos n with rfl | hpos
    · exact Or.inl rfl
    · rw [levelTerm_of_pos c hpos]
      rcases hn.lt_or_eq with hlt | rfl
      · exact Or.inr (Or.inl ⟨n, hpos, hlt, rfl⟩)
      · exact Or.inr (Or.inr (by rw [hself]))

/-- The terms of a leaf are its terms for the levels from the face to the leaf. -/
theorem indexLeaf_eq_image (hl : l.IsLeaf) :
    indexLeaf l = (Finset.range (kMaxLevel + 1)).image (levelTerm l) := by
  have hlevel : l.level = kMaxLevel := hl
  have hpos : 1 ≤ l.level := by
    rw [hlevel]
    decide
  ext t
  rw [mem_indexLeaf, pointTerm_iff hpos, hlevel, Finset.mem_image]
  constructor
  · rintro ⟨n, hn, rfl⟩
    exact ⟨n, Finset.mem_range.mpr (Nat.lt_succ_of_le hn), rfl⟩
  · rintro ⟨n, hn, rfl⟩
    exact ⟨n, Nat.le_of_lt_succ (Finset.mem_range.mp hn), rfl⟩

theorem levelTerm_injOn (hl : l.IsLeaf) {s : Finset Nat} (hs : s ⊆ Finset.range (kMaxLevel + 1)) :
    Set.InjOn (levelTerm l) s := by
  have hle : ∀ n ∈ s, n ≤ l.level := by
    intro n hn
    rw [show l.level = kMaxLevel from hl]
    exact Nat.lt_succ_iff.mp (Finset.mem_range.mp (hs hn))
  intro m hm n hn h
  exact ((levelTerm_eq_iff (hle m hm) (hle n hn)).mp h).1

theorem card_indexLeaf (hl : l.IsLeaf) : (indexLeaf l).card = kMaxLevel + 1 := by
  calc (indexLeaf l).card
      = ((Finset.range (kMaxLevel + 1)).image (levelTerm l)).card := by rw [indexLeaf_eq_image hl]
    _ = (Finset.range (kMaxLevel + 1)).card :=
        Finset.card_image_of_injOn (levelTerm_injOn hl subset_rfl)
    _ = kMaxLevel + 1 := Finset.card_range _

/-- Two leaves share the terms of the levels at which they have the same ancestor. -/
theorem indexLeaf_inter (hl : l.IsLeaf) (hl' : l'.IsLeaf) :
    indexLeaf l ∩ indexLeaf l' =
      ((Finset.range (kMaxLevel + 1)).filter fun n => l.ancestor n = l'.ancestor n).image
        (levelTerm l) := by
  have hle : ∀ n, n < kMaxLevel + 1 → n ≤ l.level ∧ n ≤ l'.level := by
    intro n hn
    rw [show l.level = kMaxLevel from hl, show l'.level = kMaxLevel from hl']
    omega
  rw [indexLeaf_eq_image hl, indexLeaf_eq_image hl']
  ext t
  simp only [Finset.mem_inter, Finset.mem_image, Finset.mem_range, Finset.mem_filter]
  constructor
  · rintro ⟨⟨m, hm, rfl⟩, n, hn, he⟩
    obtain ⟨rfl, h⟩ := (levelTerm_eq_iff (hle n hn).2 (hle m hm).1).mp he
    exact ⟨n, ⟨hm, h.symm⟩, rfl⟩
  · rintro ⟨n, ⟨hn, h⟩, rfl⟩
    exact ⟨⟨n, hn, rfl⟩, n, hn, (levelTerm_eq_iff (hle n hn).2 (hle n hn).1).mpr ⟨rfl, h.symm⟩⟩

/-- The number of shared terms is that of the common ancestors. -/
theorem card_indexLeaf_inter (hl : l.IsLeaf) (hl' : l'.IsLeaf) :
    (indexLeaf l ∩ indexLeaf l').card =
      if l.root = l'.root then l.commonLevel l' + 1 else 0 := by
  calc (indexLeaf l ∩ indexLeaf l').card
      = (((Finset.range (kMaxLevel + 1)).filter fun n => l.ancestor n = l'.ancestor n).image
          (levelTerm l)).card := by rw [indexLeaf_inter hl hl']
    _ = ((Finset.range (kMaxLevel + 1)).filter fun n => l.ancestor n = l'.ancestor n).card :=
        Finset.card_image_of_injOn (levelTerm_injOn hl (Finset.filter_subset _ _))
    _ = if l.root = l'.root then l.commonLevel l' + 1 else 0 := Cell.card_commonLevels l l'

end RedisS2Geo.Covering
