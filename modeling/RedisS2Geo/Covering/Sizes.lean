import RedisS2Geo.Covering.Terms

/-!
# How many terms a covering has, and what they tell

A cell has at most 32 terms of each kind, whatever its level. The stored terms tell the
cells: two coverings have the same terms exactly when they have the same cells.
-/

namespace RedisS2Geo.Covering
open Foundation Source

/-! ### Sizes -/

theorem card_foldl_insert_le {α β : Type*} [DecidableEq β] (f : α → β) (l : List α)
    (s : Finset β) : (l.foldl (fun ret a => insert (f a) ret) s).card ≤ s.card + l.length := by
  induction l generalizing s with
  | nil => simp
  | cons a l ih =>
      calc ((a :: l).foldl (fun ret a => insert (f a) ret) s).card
          ≤ (insert (f a) s).card + l.length := ih (insert (f a) s)
        _ ≤ s.card + 1 + l.length := Nat.add_le_add_right (Finset.card_insert_le _ _) _
        _ = s.card + (a :: l).length := by rw [List.length_cons]; omega

theorem length_prefixLengths_le (c : S2CellId) :
    (prefixLengths (cellIdToString c)).length ≤ 29 := by
  have hlevel : c.level ≤ kMaxLevel := c.level_le
  simp only [prefixLengths, List.length_range', length_toString, kMaxLevel] at hlevel ⊢
  omega

/-- Three insertions around a loop over the prefixes add at most 32 terms. -/
theorem card_round_le (c : S2CellId) (ret : Finset Bytes) (f : Nat → Bytes) (t u v : Bytes) :
    (insert v ((prefixLengths (cellIdToString c)).foldl (fun ret i => insert (f i) ret)
      (insert u (insert t ret)))).card ≤ ret.card + 32 := by
  have hloop := card_foldl_insert_le f (prefixLengths (cellIdToString c))
    (insert u (insert t ret))
  have hlength := length_prefixLengths_le c
  have ht := Finset.card_insert_le t ret
  have hu := Finset.card_insert_le u (insert t ret)
  refine (Finset.card_insert_le _ _).trans ?_
  omega

theorem card_foldl_le {round : Finset Bytes → S2CellId → Finset Bytes}
    (h : ∀ ret c, (round ret c).card ≤ ret.card + 32) (cells : List S2CellId)
    (s : Finset Bytes) : (cells.foldl round s).card ≤ s.card + 32 * cells.length := by
  induction cells generalizing s with
  | nil => simp
  | cons c cells ih =>
      have hround := h s c
      have hrest := ih (round s c)
      rw [List.foldl_cons, List.length_cons]
      omega

/-- A covering is stored under at most 32 terms for each cell. -/
theorem card_storedTerms_le (cells : List S2CellId) :
    (storedTerms cells).card ≤ 32 * cells.length := by
  have hround : ∀ ret c, (indexPolygonRound ret c).card ≤ ret.card + 32 := fun ret c =>
    card_round_le c ret _ _ _ _
  have hcard := card_foldl_le hround cells ∅
  rwa [Finset.card_empty, Nat.zero_add] at hcard

/-- A covering is looked up with at most 32 terms for each cell. -/
theorem card_queryTerms_le (cells : List S2CellId) :
    (queryTerms cells).card ≤ 32 * cells.length := by
  have hround : ∀ ret c, (indexPolygonForOverlapTestRound ret c).card ≤ ret.card + 32 :=
    fun ret c => card_round_le c ret _ _ _ _
  have hcard := card_foldl_le hround cells ∅
  rwa [Finset.card_empty, Nat.zero_add] at hcard

/-! ### Reading the cells off the terms -/

/-- The cells of a covering are those whose names are stored. -/
theorem toString_mem_storedTerms {cells : List S2CellId} {c : S2CellId} :
    cellIdToString c ∈ storedTerms cells ↔ c ∈ cells := by
  rw [mem_storedTerms]
  constructor
  · rintro ⟨d, hd, hterm⟩
    rwa [storedTerm_toString_iff.mp hterm]
  · intro hc
    exact ⟨c, hc, Or.inl rfl⟩

/-- The stored terms depend on the set of cells only, and tell it. -/
theorem storedTerms_eq_iff {cells cells' : List S2CellId} :
    storedTerms cells = storedTerms cells' ↔ ∀ c, c ∈ cells ↔ c ∈ cells' := by
  constructor
  · intro h c
    rw [← toString_mem_storedTerms, h, toString_mem_storedTerms]
  · intro h
    ext t
    simp only [mem_storedTerms, h]

end RedisS2Geo.Covering
