import RedisS2Geo.Source.Geo

/-!
# The terms of a single cell

The strings that the three generators insert for one cell, told as names of
cells. The name of an ancestor below the face is a prefix of the name of the
cell, but the face itself appears as its bare digit, which no cell is called.
-/

namespace RedisS2Geo.Covering
open Foundation Source

/-- A name with a star behind it. -/
def starred (t : Bytes) : Bytes := t ++ ascii "*"

theorem starred_inj {t u : Bytes} : starred t = starred u ↔ t = u :=
  List.append_left_inj _

/-! ### Names of cells -/

theorem toNat_digit {n : Nat} (hn : n ≤ 10) (a : Fin n) : (digit a).toNat = 48 + a := by
  have ha := a.isLt
  rw [digit, UInt8.toNat_ofNat', Nat.mod_eq_of_lt (by omega)]

theorem digit_injective {n : Nat} (hn : n ≤ 10) {a b : Fin n} (h : digit a = digit b) : a = b := by
  have htoNat := congrArg UInt8.toNat h
  rw [toNat_digit hn, toNat_digit hn] at htoNat
  exact Fin.ext (Nat.add_left_cancel htoNat)

/-- The digits begin at the byte 48. -/
theorem digit_ne_of_lt {n : Nat} (hn : n ≤ 10) (a : Fin n) {b : UInt8} (hb : b.toNat < 48) :
    digit a ≠ b := by
  rintro rfl
  rw [toNat_digit hn] at hb
  omega

theorem toString_eq (c : S2CellId) :
    cellIdToString c = digit c.root :: chr '/' :: c.path.map digit := rfl

@[simp] theorem length_toString (c : S2CellId) : (cellIdToString c).length = c.level + 2 := by
  simp [toString_eq, Cell.level]

theorem toString_inj {c d : S2CellId} : cellIdToString c = cellIdToString d ↔ c = d := by
  constructor
  · intro h
    simp only [toString_eq, List.cons.injEq, true_and] at h
    have hpath : c.path = d.path :=
      List.map_injective_iff.mpr (fun _ _ he => digit_injective (by decide) he) h.2
    exact Cell.ext (digit_injective (by decide) h.1) hpath
  · rintro rfl
    rfl

/-- The first bytes of a name are the name of the ancestor of that level. -/
theorem take_toString (c : S2CellId) (n : Nat) :
    (cellIdToString c).take (n + 2) = cellIdToString (c.ancestor n) := by
  simp [toString_eq, Cell.ancestor, List.map_take]

theorem take_one_toString (c : S2CellId) : (cellIdToString c).take 1 = [digit c.root] := rfl

theorem digit_ne_star {n : Nat} (hn : n ≤ 10) (a : Fin n) : digit a ≠ chr '*' :=
  digit_ne_of_lt hn a (by decide)

theorem digit_ne_zero {n : Nat} (hn : n ≤ 10) (a : Fin n) : digit a ≠ 0 :=
  digit_ne_of_lt hn a (by decide)

theorem ne_starred_of_notMem {s : Bytes} (h : chr '*' ∉ s) (t : Bytes) : s ≠ starred t := by
  rintro rfl
  exact h (by simp [starred, ascii, chr])

/-- No cell is called by a starred string. -/
theorem toString_ne_starred (c : S2CellId) (t : Bytes) : cellIdToString c ≠ starred t := by
  apply ne_starred_of_notMem
  intro hmem
  simp only [toString_eq, List.mem_cons, List.mem_map] at hmem
  rcases hmem with h0 | h0 | ⟨a, -, h0⟩
  · exact digit_ne_star (by decide) _ h0.symm
  · exact absurd h0 (by decide)
  · exact digit_ne_star (by decide) _ h0

/-- No cell is called by a bare face digit. -/
theorem toString_ne_face (c : S2CellId) (f : Fin 6) : cellIdToString c ≠ [digit f] := by
  intro h
  have := congrArg List.length h
  simp at this

theorem face_ne_starred (f : Fin 6) (t : Bytes) : [digit f] ≠ starred t := by
  apply ne_starred_of_notMem
  intro hmem
  exact digit_ne_star (by decide) f (List.mem_singleton.mp hmem).symm

/-! ### Terms of one cell -/

/-- The proper prefixes inserted by the loop are the names of the proper ancestors
below the face. -/
theorem exists_prefixLength_iff (c : S2CellId) (P : Bytes → Prop) :
    (∃ i ∈ prefixLengths (cellIdToString c), P ((cellIdToString c).take i)) ↔
      ∃ n, 1 ≤ n ∧ n < c.level ∧ P (cellIdToString (c.ancestor n)) := by
  constructor
  · rintro ⟨i, hi, hP⟩
    simp only [prefixLengths, length_toString, List.mem_range'_1] at hi
    refine ⟨i - 2, by omega, by omega, ?_⟩
    rw [← take_toString]
    simpa [show i - 2 + 2 = i by omega] using hP
  · rintro ⟨n, h1, hn, hP⟩
    refine ⟨n + 2, ?_, by rwa [take_toString]⟩
    simp only [prefixLengths, length_toString, List.mem_range'_1]
    omega

/-- A term that `IndexPolygon` stores for a cell. -/
def StoredTerm (c : S2CellId) (t : Bytes) : Prop :=
  t = cellIdToString c ∨ t = starred [digit c.root] ∨
    (∃ n, 1 ≤ n ∧ n < c.level ∧ t = starred (cellIdToString (c.ancestor n))) ∨
      t = starred (cellIdToString c)

/-- A term that `IndexPolygonForOverlapTest` looks up for a cell. -/
def QueryTerm (c : S2CellId) (t : Bytes) : Prop :=
  t = cellIdToString c ∨ t = [digit c.root] ∨
    (∃ n, 1 ≤ n ∧ n < c.level ∧ t = cellIdToString (c.ancestor n)) ∨ t = starred (cellIdToString c)

/-- A term that `IndexPoint` looks up for a leaf. -/
def PointTerm (c : S2CellId) (t : Bytes) : Prop :=
  t = [digit c.root] ∨ (∃ n, 1 ≤ n ∧ n < c.level ∧ t = cellIdToString (c.ancestor n)) ∨
    t = cellIdToString c

/-- The stored terms without a star are the names of the cells themselves. -/
theorem storedTerm_toString_iff {c d : S2CellId} : StoredTerm c (cellIdToString d) ↔ d = c := by
  rw [StoredTerm, toString_inj]
  constructor
  · rintro (h | h | ⟨n, -, -, h⟩ | h)
    · exact h
    all_goals exact absurd h (toString_ne_starred d _)
  · exact Or.inl

theorem not_storedTerm_face (c : S2CellId) (f : Fin 6) : ¬ StoredTerm c [digit f] := by
  rintro (h | h | ⟨n, -, -, h⟩ | h)
  · exact toString_ne_face c f h.symm
  all_goals exact face_ne_starred f _ h

/-- The names that a query looks up are those of the cell and of its ancestors below the
face. -/
theorem queryTerm_toString_iff {c d : S2CellId} :
    QueryTerm d (cellIdToString c) ↔
      c = d ∨ ∃ n, 1 ≤ n ∧ n < d.level ∧ c = d.ancestor n := by
  simp only [QueryTerm, toString_inj, toString_ne_face, toString_ne_starred, false_or, or_false]

/-- The only starred string that a query looks up is the starred name of its cell. -/
theorem queryTerm_starred_iff {d : S2CellId} {t : Bytes} :
    QueryTerm d (starred t) ↔ t = cellIdToString d := by
  constructor
  · rintro (h | h | ⟨n, -, -, h⟩ | h)
    · exact absurd h.symm (toString_ne_starred d t)
    · exact absurd h.symm (face_ne_starred _ t)
    · exact absurd h.symm (toString_ne_starred _ t)
    · exact starred_inj.mp h
  · rintro rfl
    exact Or.inr (Or.inr (Or.inr rfl))

theorem nulFree_toString (c : S2CellId) : NulFree (cellIdToString c) := by
  intro h
  simp only [toString_eq, List.mem_cons, List.mem_map] at h
  rcases h with h | h | ⟨a, -, h⟩
  · exact digit_ne_zero (by decide) _ h.symm
  · exact absurd h (by decide)
  · exact digit_ne_zero (by decide) _ h

theorem nulFree_starred {t : Bytes} (h : NulFree t) : NulFree (starred t) := by
  simpa [NulFree, starred, ascii, chr] using h

theorem nulFree_face (f : Fin 6) : NulFree [digit f] := by
  simpa [NulFree] using (digit_ne_zero (by decide) f).symm

/-- Stored terms have no zero byte, so that the cells key is made of the whole term. -/
theorem StoredTerm.nulFree {c : S2CellId} {t : Bytes} (h : StoredTerm c t) : NulFree t := by
  rcases h with rfl | rfl | ⟨n, -, -, rfl⟩ | rfl
  · exact nulFree_toString c
  · exact nulFree_starred (nulFree_face _)
  · exact nulFree_starred (nulFree_toString _)
  · exact nulFree_starred (nulFree_toString c)

theorem QueryTerm.nulFree {c : S2CellId} {t : Bytes} (h : QueryTerm c t) : NulFree t := by
  rcases h with rfl | rfl | ⟨n, -, -, rfl⟩ | rfl
  · exact nulFree_toString c
  · exact nulFree_face _
  · exact nulFree_toString _
  · exact nulFree_starred (nulFree_toString c)

theorem PointTerm.nulFree {c : S2CellId} {t : Bytes} (h : PointTerm c t) : NulFree t := by
  rcases h with rfl | ⟨n, -, -, rfl⟩ | rfl
  · exact nulFree_face _
  · exact nulFree_toString _
  · exact nulFree_toString c

theorem mem_foldl_insert {α β : Type*} [DecidableEq β] (f : α → β) (l : List α) (s : Finset β)
    (b : β) :
    b ∈ l.foldl (fun ret a => insert (f a) ret) s ↔ b ∈ s ∨ ∃ a ∈ l, b = f a := by
  induction l generalizing s with
  | nil => simp
  | cons a l ih =>
      simp only [List.foldl_cons, ih, Finset.mem_insert, List.exists_mem_cons_iff]
      tauto

theorem mem_indexPolygonRound (ret : Finset Bytes) (c : S2CellId) (t : Bytes) :
    t ∈ indexPolygonRound ret c ↔ t ∈ ret ∨ StoredTerm c t := by
  simp only [indexPolygonRound, Finset.mem_insert, mem_foldl_insert, take_one_toString]
  rw [exists_prefixLength_iff c fun u => t = u ++ ascii "*"]
  simp only [StoredTerm, starred, or_assoc, or_comm, or_left_comm]

theorem mem_indexPolygonForOverlapTestRound (ret : Finset Bytes) (c : S2CellId) (t : Bytes) :
    t ∈ indexPolygonForOverlapTestRound ret c ↔ t ∈ ret ∨ QueryTerm c t := by
  simp only [indexPolygonForOverlapTestRound, Finset.mem_insert, mem_foldl_insert,
    take_one_toString]
  rw [exists_prefixLength_iff c fun u => t = u]
  simp only [QueryTerm, starred, or_assoc, or_comm, or_left_comm]

theorem mem_indexLeaf (c : S2CellId) (t : Bytes) : t ∈ indexLeaf c ↔ PointTerm c t := by
  simp only [indexLeaf, Finset.mem_insert, mem_foldl_insert, Finset.mem_singleton,
    take_one_toString]
  rw [exists_prefixLength_iff c fun u => t = u]
  simp only [PointTerm, or_comm, or_left_comm]

/-! ### Terms of a covering -/

theorem mem_foldl_of_round {α β : Type*} {round : Finset β → α → Finset β} {Term : α → β → Prop}
    (h : ∀ ret a b, b ∈ round ret a ↔ b ∈ ret ∨ Term a b) (l : List α) (s : Finset β) (b : β) :
    b ∈ l.foldl round s ↔ b ∈ s ∨ ∃ a ∈ l, Term a b := by
  induction l generalizing s with
  | nil => simp
  | cons a l ih =>
      simp only [List.foldl_cons, ih, h, List.exists_mem_cons_iff]
      tauto

/-- The terms that the loop of `IndexPolygon` stores for the cells of a covering. -/
def storedTerms (cells : List S2CellId) : Finset Bytes := cells.foldl indexPolygonRound ∅

/-- The terms that the loop of `IndexPolygonForOverlapTest` looks up for the cells of a
covering. -/
def queryTerms (cells : List S2CellId) : Finset Bytes :=
  cells.foldl indexPolygonForOverlapTestRound ∅

theorem mem_storedTerms {cells : List S2CellId} {t : Bytes} :
    t ∈ storedTerms cells ↔ ∃ c ∈ cells, StoredTerm c t := by
  simp [storedTerms, mem_foldl_of_round mem_indexPolygonRound]

theorem mem_queryTerms {cells : List S2CellId} {t : Bytes} :
    t ∈ queryTerms cells ↔ ∃ c ∈ cells, QueryTerm c t := by
  simp [queryTerms, mem_foldl_of_round mem_indexPolygonForOverlapTestRound]

section Coverings
variable {env : Environment} {polygon : Option (S2Polygon env.Point)}

theorem indexPolygon_eq :
    indexPolygon env polygon = storedTerms (getPolygonCovering env polygon) := rfl

theorem indexPolygonForOverlapTest_eq :
    indexPolygonForOverlapTest env polygon = queryTerms (getPolygonCovering env polygon) := rfl

theorem mem_indexPolygon {t : Bytes} :
    t ∈ indexPolygon env polygon ↔ ∃ c ∈ getPolygonCovering env polygon, StoredTerm c t := by
  rw [indexPolygon_eq, mem_storedTerms]

theorem mem_indexPolygonForOverlapTest {t : Bytes} :
    t ∈ indexPolygonForOverlapTest env polygon ↔
      ∃ c ∈ getPolygonCovering env polygon, QueryTerm c t := by
  rw [indexPolygonForOverlapTest_eq, mem_queryTerms]

/-- A polygon has terms exactly when its covering has cells. -/
theorem indexPolygon_eq_empty_iff :
    indexPolygon env polygon = ∅ ↔ getPolygonCovering env polygon = [] := by
  simp only [Finset.eq_empty_iff_forall_notMem, mem_indexPolygon, List.eq_nil_iff_forall_not_mem]
  constructor
  · intro h c hc
    exact h (cellIdToString c) ⟨c, hc, Or.inl rfl⟩
  · rintro h t ⟨c, hc, -⟩
    exact h c hc

theorem indexPolygonForOverlapTest_eq_empty_iff :
    indexPolygonForOverlapTest env polygon = ∅ ↔ getPolygonCovering env polygon = [] := by
  simp only [Finset.eq_empty_iff_forall_notMem, mem_indexPolygonForOverlapTest,
    List.eq_nil_iff_forall_not_mem]
  constructor
  · intro h c hc
    exact h (cellIdToString c) ⟨c, hc, Or.inl rfl⟩
  · rintro h t ⟨c, hc, -⟩
    exact h c hc

end Coverings

end RedisS2Geo.Covering
