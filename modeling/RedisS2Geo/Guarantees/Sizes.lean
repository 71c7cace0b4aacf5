import RedisS2Geo.Covering.Chain
import RedisS2Geo.Covering.Sizes
import RedisS2Geo.Store.Locality
import RedisS2Geo.Store.Runs
import Mathlib.Algebra.Order.BigOperators.Group.Finset
import Mathlib.Combinatorics.Enumerative.DoubleCounting

/-!
# What an index takes

An index has as many entries in its cells as in its cell infos, and both are linear in
the number of cells of the coverings.
-/

namespace RedisS2Geo.Guarantees
open Foundation Source Covering Store

variable {env : Environment} {K : Keyspace Bytes} {A : Contents} {i : Bytes} {m : Polygons}

/-- The number of fields or members of a value. -/
def entryCount : Option (Value Bytes) → Nat
  | some (.hash fields _) => fields.keys.card
  | some (.set members _) => members.card
  | _ => 0

/-- The number of cells of the covering of a polygon. -/
def cellCount (env : Environment) (m : Polygons) (p : Bytes) : Nat :=
  (m.lookup p).elim 0 fun b => (bodyCovering env b).length

@[simp] theorem entryCount_none : entryCount none = 0 := rfl

@[simp] theorem entryCount_ofHash (fields : Polygons) :
    entryCount (ofHash fields) = fields.keys.card := by
  by_cases h : fields = ∅
  · simp [ofHash, h, entryCount]
  · simp [ofHash, h, entryCount]

@[simp] theorem entryCount_ofSet (s : Finset Bytes) : entryCount (ofSet s) = s.card := by
  by_cases h : s = ∅
  · simp [ofSet, h, entryCount]
  · simp [ofSet, h, entryCount]

theorem card_termsOf_le (m : Polygons) (p : Bytes) :
    (termsOf env m p).card ≤ 32 * cellCount env m p := by
  cases hl : m.lookup p with
  | none => simp [termsOf, cellCount, hl]
  | some b =>
      rw [termsOf_of_lookup hl, cellCount, hl]
      exact card_storedTerms_le (bodyCovering env b)

/-! ### The keys of an index -/

/-- The terms of all polygons of an index. -/
def allTerms (env : Environment) (m : Polygons) : Finset Bytes :=
  m.keys.biUnion (termsOf env m)

/-- The keys that an index with these polygons may use. -/
def usedKeys (env : Environment) (i : Bytes) (m : Polygons) : Finset StoreKey :=
  {.info i, .polygons i} ∪ (m.keys.image (.cellinfo i) ∪ (allTerms env m).image (.cells i))

theorem card_usedKeys_le (env : Environment) (i : Bytes) (m : Polygons) :
    (usedKeys env i m).card ≤ 2 + ∑ p ∈ m.keys, (1 + 32 * cellCount env m p) := by
  have hinfos : (m.keys.image (StoreKey.cellinfo i)).card ≤ m.keys.card := Finset.card_image_le
  have hcells : ((allTerms env m).image (StoreKey.cells i)).card ≤
      ∑ p ∈ m.keys, 32 * cellCount env m p :=
    calc ((allTerms env m).image (StoreKey.cells i)).card
        ≤ (allTerms env m).card := Finset.card_image_le
      _ ≤ ∑ p ∈ m.keys, (termsOf env m p).card := Finset.card_biUnion_le
      _ ≤ ∑ p ∈ m.keys, 32 * cellCount env m p :=
          Finset.sum_le_sum fun p _ => card_termsOf_le m p
  have htwo : ({.info i, .polygons i} : Finset StoreKey).card ≤ 2 := Finset.card_le_two
  have hrest := Finset.card_union_le (m.keys.image (StoreKey.cellinfo i))
    ((allTerms env m).image (StoreKey.cells i))
  have hall := Finset.card_union_le ({.info i, .polygons i} : Finset StoreKey)
    (m.keys.image (StoreKey.cellinfo i) ∪ (allTerms env m).image (StoreKey.cells i))
  rw [Finset.sum_add_distrib, ← Finset.card_eq_sum_ones, usedKeys]
  omega

theorem ofSet_ne_none {s : Finset Bytes} (h : ofSet s ≠ none) : s.Nonempty := by
  rw [Finset.nonempty_iff_ne_empty]
  rintro rfl
  exact h ofSet_empty

/-- A key of the index that holds something is one of them. -/
theorem mem_usedKeys {k : StoreKey} (hA : A k.index = some m)
    (hk : A.valueAt env k ≠ none) : k ∈ usedKeys env k.index m := by
  have hm : A.polygons k.index = m := Contents.polygons_of_some hA
  cases k with
  | info n => simp [usedKeys, StoreKey.index]
  | polygons n => simp [usedKeys, StoreKey.index]
  | cellinfo n p =>
      simp only [StoreKey.index] at hm
      rw [Contents.valueAt, hm] at hk
      obtain ⟨t, ht⟩ := ofSet_ne_none hk
      have hp : p ∈ m.keys := Finmap.mem_keys.mpr (mem_of_mem_termsOf ht)
      exact Finset.mem_union_right _ (Finset.mem_union_left _ (Finset.mem_image_of_mem _ hp))
  | cells n t =>
      simp only [StoreKey.index] at hm
      rw [Contents.valueAt, hm] at hk
      obtain ⟨p, hp⟩ := ofSet_ne_none hk
      obtain ⟨hmem, ht⟩ := Finset.mem_filter.mp hp
      have hall : t ∈ allTerms env m := Finset.mem_biUnion.mpr ⟨p, hmem, ht⟩
      exact Finset.mem_union_right _ (Finset.mem_union_right _ (Finset.mem_image_of_mem _ hall))

/-! ### The entries of an index -/

/-- Every term of a polygon is one membership in a cell. -/
theorem sum_card_cells (m : Polygons) :
    ∑ t ∈ allTerms env m, (m.keys.filter fun p => t ∈ termsOf env m p).card =
      ∑ p ∈ m.keys, (termsOf env m p).card := by
  have hcount := Finset.sum_card_bipartiteAbove_eq_sum_card_bipartiteBelow (s := m.keys)
    (t := allTerms env m) (fun p t => t ∈ termsOf env m p)
  have habove : ∀ p ∈ m.keys,
      (allTerms env m).bipartiteAbove (fun p t => t ∈ termsOf env m p) p = termsOf env m p := by
    intro p hp
    ext t
    rw [Finset.mem_bipartiteAbove, and_iff_right_iff_imp]
    exact fun ht => Finset.mem_biUnion.mpr ⟨p, hp, ht⟩
  rw [Finset.sum_congr rfl fun p hp => congrArg Finset.card (habove p hp)] at hcount
  exact hcount.symm

/-- An index has as many entries in its cells as in its cell infos, besides its marker and
its bodies. -/
theorem sum_entryCount (hA : A i = some m) :
    ∑ k ∈ usedKeys env i m, entryCount (A.valueAt env k) =
      1 + m.keys.card + 2 * ∑ p ∈ m.keys, (termsOf env m p).card := by
  have hm : A.polygons i = m := Contents.polygons_of_some hA
  have hmarker : (markerHash : Polygons).keys.card = 1 := by decide
  have hinfos : ∑ k ∈ m.keys.image (StoreKey.cellinfo i), entryCount (A.valueAt env k) =
      ∑ p ∈ m.keys, (termsOf env m p).card := by
    rw [Finset.sum_image fun p _ q _ h => (StoreKey.cellinfo.inj h).2]
    simp only [Contents.valueAt, hm, entryCount_ofSet]
  have hcells : ∑ k ∈ (allTerms env m).image (StoreKey.cells i),
      entryCount (A.valueAt env k) = ∑ p ∈ m.keys, (termsOf env m p).card := by
    rw [Finset.sum_image fun t _ u _ h => (StoreKey.cells.inj h).2, ← sum_card_cells]
    simp only [Contents.valueAt, hm, entryCount_ofSet]
  have hfirst : Disjoint ({.info i, .polygons i} : Finset StoreKey)
      (m.keys.image (StoreKey.cellinfo i) ∪ (allTerms env m).image (StoreKey.cells i)) := by
    rw [Finset.disjoint_left]
    intro k hk
    rcases Finset.mem_insert.mp hk with rfl | hk
    · simp
    · obtain rfl := Finset.mem_singleton.mp hk
      simp
  have hsecond : Disjoint (m.keys.image (StoreKey.cellinfo i))
      ((allTerms env m).image (StoreKey.cells i)) := by
    rw [Finset.disjoint_left]
    intro k hk
    obtain ⟨p, -, rfl⟩ := Finset.mem_image.mp hk
    simp
  have htwo : ∑ k ∈ ({.info i, .polygons i} : Finset StoreKey), entryCount (A.valueAt env k) =
      1 + m.keys.card := by
    rw [Finset.sum_pair (by simp)]
    simp only [Contents.valueAt, hA, hm, Option.isSome_some, if_true, entryCount_ofHash, hmarker]
  rw [usedKeys, Finset.sum_union hfirst, Finset.sum_union hsecond, htwo, hinfos, hcells]
  omega

/-- The keys of an existing index with the sum of their entries. -/
theorem exists_keys (h : Represents env K A) (hi : entityDelim ∉ i) (hA : A i = some m) :
    ∃ keys : Finset Bytes, (∀ key, key ∈ keys ↔ key ∈ region i ∧ K key ≠ none) ∧
      keys.card ≤ (usedKeys env i m).card ∧
      ∑ key ∈ keys, entryCount (K key) =
        ∑ k ∈ usedKeys env i m, entryCount (A.valueAt env k) := by
  have hindex : ∀ k ∈ usedKeys env i m, k.index = i := by
    intro k hk
    rcases Finset.mem_union.mp hk with hk | hk
    · rcases Finset.mem_insert.mp hk with rfl | hk
      · rfl
      · rw [Finset.mem_singleton.mp hk, StoreKey.index]
    · rcases Finset.mem_union.mp hk with hk | hk
      · obtain ⟨p, -, rfl⟩ := Finset.mem_image.mp hk
        rfl
      · obtain ⟨t, -, rfl⟩ := Finset.mem_image.mp hk
        rfl
  have hwf : ∀ k ∈ usedKeys env i m, k.WellFormed := fun k hk => by
    rw [StoreKey.WellFormed, hindex k hk]
    exact hi
  have hinj : Set.InjOn StoreKey.bytes (usedKeys env i m : Set StoreKey) := fun k hk k' hk' he =>
    (StoreKey.bytes_inj (hwf k hk) (hwf k' hk')).mp he
  let used := (usedKeys env i m).image StoreKey.bytes
  refine ⟨used.filter fun key => (K key).isSome = true, fun key => ?_, ?_, ?_⟩
  · rw [Finset.mem_filter, Finset.mem_image, Option.isSome_iff_ne_none]
    constructor
    · rintro ⟨⟨k, hk, rfl⟩, hsome⟩
      exact ⟨⟨k, hindex k hk, rfl⟩, hsome⟩
    · rintro ⟨⟨k, rfl, rfl⟩, hsome⟩
      refine ⟨⟨k, mem_usedKeys hA ?_, rfl⟩, hsome⟩
      rwa [← h.at_key k hi]
  · exact (Finset.card_filter_le _ _).trans Finset.card_image_le
  · -- an absent key has no entries
    have hzero : ∀ key ∈ used, entryCount (K key) ≠ 0 → (K key).isSome = true := by
      intro key _ hne
      rw [Option.isSome_iff_ne_none]
      intro hnone
      exact hne (by rw [hnone, entryCount_none])
    calc ∑ key ∈ used.filter (fun key => (K key).isSome = true), entryCount (K key)
        = ∑ key ∈ used, entryCount (K key) := Finset.sum_filter_of_ne hzero
      _ = ∑ k ∈ usedKeys env i m, entryCount (K k.bytes) := Finset.sum_image hinj
      _ = ∑ k ∈ usedKeys env i m, entryCount (A.valueAt env k) :=
          Finset.sum_congr rfl fun k hk => by rw [h.at_key k (hwf k hk)]

/-- An index takes space linear in its coverings, after every run: with the polygons of its
hash, it has at most two keys and 1 + 32 n more for each polygon with n cells, and these
hold together at most one entry and 1 + 64 n more for each of these polygons. -/
theorem storage_linear (hK : ReachableStore env K) (hi : NulFree i) (hx : IndexExists K i)
    (hf : asHash (K (createIndexPolygonsHashKey i)) = some m) :
    ∃ keys : Finset Bytes, (∀ key, key ∈ keys ↔ key ∈ region i ∧ K key ≠ none) ∧
      keys.card ≤ 2 + ∑ p ∈ m.keys, (1 + 32 * cellCount env m p) ∧
      ∑ key ∈ keys, entryCount (K key) ≤ 1 + ∑ p ∈ m.keys, (1 + 64 * cellCount env m p) := by
  obtain ⟨A, h⟩ := hK.represents
  have hplain : PlainName i := ⟨hx.accepted, hi⟩
  obtain ⟨m', hA⟩ := h.exists_polygons hx
  have hhash := h.asHash_polygons hx.accepted.notMem
  rw [Contents.polygons_of_some hA, hf, Option.some.injEq] at hhash
  subst hhash
  rw [hplain.cString_eq] at hA
  obtain ⟨keys, hkeys, hcard, hsum⟩ := exists_keys h hplain.notMem hA
  refine ⟨keys, hkeys, hcard.trans (card_usedKeys_le env i m), ?_⟩
  have hterms : ∑ p ∈ m.keys, (termsOf env m p).card ≤ ∑ p ∈ m.keys, 32 * cellCount env m p :=
    Finset.sum_le_sum fun p _ => card_termsOf_le m p
  rw [← Finset.mul_sum] at hterms
  rw [hsum, sum_entryCount hA, Finset.sum_add_distrib, ← Finset.card_eq_sum_ones,
    ← Finset.mul_sum]
  omega

theorem storage_linear_triangle :
    ∃ K m, ∃ keys : Finset Bytes,
      bodyAt K (ascii "i") (ascii "p") = some triangleBody ∧
      asHash (K (createIndexPolygonsHashKey (ascii "i"))) = some m ∧
      (∀ key, key ∈ keys ↔ key ∈ region (ascii "i") ∧ K key ≠ none) ∧
      keys.card ≤ 2 + ∑ p ∈ m.keys, (1 + 32 * cellCount sampleEnvironment m p) := by
  obtain ⟨K, hK, hx, hb⟩ := exists_sample covered_triangleBody
  obtain ⟨A, h⟩ := hK.represents
  have hhash := h.asHash_polygons plainName_i.1.notMem
  obtain ⟨keys, hkeys, hcard, -⟩ := storage_linear hK plainName_i.2 hx hhash
  exact ⟨K, _, keys, hb, hhash, hkeys, hcard⟩

/-! ### What a search reads -/

/-- The marker of an index and its cells for some terms. -/
def searchKeys (i : Bytes) (terms : Finset Bytes) : Finset Bytes :=
  insert (createIndexMetaHashKey i) (terms.image (createIndexCellsSetKeyCStr i))

theorem card_searchKeys_le (i : Bytes) (terms : Finset Bytes) :
    (searchKeys i terms).card ≤ 1 + terms.card := by
  have hcard := Finset.card_insert_le (createIndexMetaHashKey i)
    (terms.image (createIndexCellsSetKeyCStr i))
  have himage : (terms.image (createIndexCellsSetKeyCStr i)).card ≤ terms.card :=
    Finset.card_image_le
  rw [searchKeys]
  omega

theorem local_validateIndex (i : Bytes) (terms : Finset Bytes) :
    Local (searchKeys i terms : Set Bytes) (validateIndex i) := by
  have hmarker : createIndexMetaHashKey i ∈ (searchKeys i terms : Set Bytes) :=
    Finset.mem_coe.mpr (Finset.mem_insert_self _ _)
  apply ((onKey_hget _ _).isLocal hmarker).bind
  intro reply
  split
  · exact .pure _
  · split <;> exact .pure _
  · exact .pure _

theorem local_getPolygonsInCells (ω : Orders) (i : Bytes) (terms : Finset Bytes) :
    Local (searchKeys i terms : Set Bytes) (getPolygonsInCells ω i terms) := by
  have hcells : ∀ key ∈ (ω.unorderedSet.list terms).map (createIndexCellsSetKeyCStr i),
      key ∈ (searchKeys i terms : Set Bytes) := by
    intro key hkey
    obtain ⟨t, ht, rfl⟩ := List.mem_map.mp hkey
    rw [Enumeration.mem_list] at ht
    exact Finset.mem_coe.mpr (Finset.mem_insert_of_mem (Finset.mem_image_of_mem _ ht))
  apply (isLocal_sunion _ hcells).bind
  intro reply
  split <;> exact .pure _

theorem local_searchPolygonCommand (env : Environment) (ω : Orders) (i q : Bytes) :
    Local (searchKeys i (queryTerms (bodyCovering env q)) : Set Bytes)
      (searchPolygonCommand env ω [i, q]) := by
  simp only [searchPolygonCommand]
  split
  · apply (local_validateIndex i _).bind
    intro ret
    split
    · split
      · rename_i polygon hparse
        have hterms : indexPolygonForOverlapTest env (some polygon) =
            queryTerms (bodyCovering env q) := by
          rw [indexPolygonForOverlapTest_eq, bodyCovering, hparse]
        split
        · exact .pure _
        · rw [hterms]
          apply (local_getPolygonsInCells ω i _).bind
          intro ret
          split <;> exact .pure _
      · exact .pure _
    · exact .pure _
  · exact .pure _

theorem local_searchPointCommand (env : Environment) (ω : Orders) (i q : Bytes) :
    Local (searchKeys i (indexPoint env (parseLatLng env q)) : Set Bytes)
      (searchPointCommand env ω [i, q]) := by
  simp only [searchPointCommand]
  split
  · apply (local_validateIndex i _).bind
    intro ret
    split
    · split
      · rename_i point hparse
        rw [hparse]
        split
        · exact .pure _
        · apply (local_getPolygonsInCells ω i _).bind
          intro ret
          split <;> exact .pure _
      · exact .pure _
    · exact .pure _
  · exact .pure _

theorem card_indexPoint_le (env : Environment) (point : Option env.LatLng) :
    (indexPoint env point).card ≤ 31 := by
  cases point with
  | none => exact Nat.zero_le _
  | some point => exact (card_indexLeaf (env.cellIdOfPoint (env.toPoint point)).2).le

/-- The work of a search does not grow with the index: whatever the keyspace holds, the reply
depends on the values of at most 1 + 32 n keys when the query has n cells, and on those of
at most 32 keys when the query is a point. -/
theorem search_reads_few (env : Environment) (ω : Orders) (i q : Bytes) :
    (∃ keys : Finset Bytes, keys.card ≤ 1 + 32 * (bodyCovering env q).length ∧
      ∀ K K' : Keyspace Bytes, Set.EqOn K K' keys →
        (exec env ω ⟨.polysearch, [i, q]⟩ K).map Prod.fst =
          (exec env ω ⟨.polysearch, [i, q]⟩ K').map Prod.fst) ∧
    ∃ keys : Finset Bytes, keys.card ≤ 32 ∧
      ∀ K K' : Keyspace Bytes, Set.EqOn K K' keys →
        (exec env ω ⟨.pointsearch, [i, q]⟩ K).map Prod.fst =
          (exec env ω ⟨.pointsearch, [i, q]⟩ K').map Prod.fst := by
  constructor
  · refine ⟨searchKeys i (queryTerms (bodyCovering env q)), ?_, fun K K' h => ?_⟩
    · have hkeys := card_searchKeys_le i (queryTerms (bodyCovering env q))
      have hterms := card_queryTerms_le (bodyCovering env q)
      omega
    · exact (local_searchPolygonCommand env ω i q).result_eq h
  · refine ⟨searchKeys i (indexPoint env (parseLatLng env q)), ?_, fun K K' h => ?_⟩
    · have hkeys := card_searchKeys_le i (indexPoint env (parseLatLng env q))
      have hterms := card_indexPoint_le env (parseLatLng env q)
      omega
    · exact (local_searchPointCommand env ω i q).result_eq h

/-! ### What the terms tell -/

variable {p b b' : Bytes}

/-- With the same terms for every polygon all keys but the bodies are the same. -/
theorem valueAt_insert_of_terms {k : StoreKey} (hA : A i = some m) (hp : p ∈ m)
    (hterms : bodyTerms env b' = termsOf env m p) (hk : k ≠ .polygons i) :
    Contents.valueAt env (Function.update A i (some (m.insert p b'))) k = A.valueAt env k := by
  by_cases hn : k.index = i
  · have hm : A.polygons i = m := Contents.polygons_of_some hA
    have hm' : Contents.polygons (Function.update A i (some (m.insert p b'))) i = m.insert p b' :=
      Contents.polygons_of_some (Function.update_self _ _ _)
    have hsame : ∀ q, termsOf env (m.insert p b') q = termsOf env m q := by
      intro q
      by_cases hq : q = p
      · subst hq
        rw [termsOf_insert_self, hterms]
      · rw [termsOf_insert_of_ne hq]
    have hkeys : (m.insert p b').keys = m.keys := by
      ext q
      rw [Finmap.mem_keys, Finmap.mem_keys, Finmap.mem_insert]
      constructor
      · rintro (rfl | hq)
        · exact hp
        · exact hq
      · exact Or.inr
    cases k <;> simp only [StoreKey.index] at hn <;> subst hn
    · simp only [Contents.valueAt, Function.update_self, hA, Option.isSome_some]
    · exact absurd rfl hk
    · simp only [Contents.valueAt, hm, hm', hsame, hkeys]
    · simp only [Contents.valueAt, hm, hm', hsame]
  · exact Contents.valueAt_congr (Function.update_of_ne hn _ _)

/-- Storing another body for a polygon changes the hash of bodies only, exactly when the two
bodies are covered by the same cells. -/
theorem body_alone_changes_iff (hK : ReachableStore env K) (hi : NulFree i)
    (hx : IndexExists K i) (hb : bodyAt K i p = some b) (hb' : bodyCovering env b' ≠ [])
    (ω : Orders) :
    ∃ K', exec env ω ⟨.polyset, [i, p, b']⟩ K = some (replyWithLongLong 1, K') ∧
      ((∀ key, key ≠ createIndexPolygonsHashKey i → K' key = K key) ↔
        ∀ c, c ∈ bodyCovering env b ↔ c ∈ bodyCovering env b') := by
  obtain ⟨A, h⟩ := hK.represents
  have hplain : PlainName i := ⟨hx.accepted, hi⟩
  have hcs : cString i = i := hplain.cString_eq
  obtain ⟨m, hA'⟩ := h.exists_polygons hx
  have hA : A i = some m := hcs ▸ hA'
  rw [h.bodyAt_eq hx.accepted.notMem, Contents.polygons_of_some hA'] at hb
  have hmem : p ∈ m := Finmap.mem_of_lookup_eq_some hb
  have hp : PlainName p := (h.wellFormed.polygons hA).name hmem
  obtain ⟨K', he, h'⟩ := h.setPolygonCommand_plain ω hx.accepted hA' hp
    (bodyTerms_eq_empty_iff.not.mpr hb')
  rw [hcs] at h'
  refine ⟨K', he, ?_⟩
  have hinfo : ∀ {K : Keyspace Bytes} {A : Contents}, Represents env K A →
      K (StoreKey.cellinfo i p).bytes = ofSet (termsOf env (A.polygons i) p) := fun h =>
    h.at_key (.cellinfo i p) hplain.notMem
  constructor
  · intro hsame
    have hkey : (StoreKey.cellinfo i p).bytes ≠ createIndexPolygonsHashKey i := by
      rw [createIndexPolygonsHashKey_eq, hcs]
      exact StoreKey.bytes_ne_of_index _ _ rfl (by simp)
    have hterms := hsame _ hkey
    rw [hinfo h', hinfo h, Contents.polygons_of_some (Function.update_self _ _ _),
      termsOf_insert_self, Contents.polygons_of_some hA, termsOf_of_lookup hb] at hterms
    have hcells := congrArg asSet hterms
    rw [asSet_ofSet, asSet_ofSet, Option.some.injEq] at hcells
    exact storedTerms_eq_iff.mp hcells.symm
  · intro hcells key hkey
    have hterms : bodyTerms env b' = termsOf env m p := by
      rw [termsOf_of_lookup hb]
      exact storedTerms_eq_iff.mpr fun c => (hcells c).symm
    by_cases hk : ∃ k : StoreKey, k.WellFormed ∧ key = k.bytes
    · obtain ⟨k, hw, rfl⟩ := hk
      rw [h'.at_key k hw, h.at_key k hw]
      apply valueAt_insert_of_terms hA hmem hterms
      rintro rfl
      exact hkey (by rw [createIndexPolygonsHashKey_eq, hcs])
    · push Not at hk
      rw [h'.elsewhere key hk, h.elsewhere key hk]

/-- A body with other cells changes more than the hash of bodies. -/
theorem body_alone_changes_iff_hole :
    ∃ K K', bodyAt K (ascii "i") (ascii "p") = some triangleBody ∧
      exec sampleEnvironment ascending
        ⟨.polyset, [ascii "i", ascii "p", holeBody]⟩ K = some (replyWithLongLong 1, K') ∧
      ¬ ∀ key, key ≠ createIndexPolygonsHashKey (ascii "i") → K' key = K key := by
  obtain ⟨K, hK, hx, hb⟩ := exists_sample covered_triangleBody
  obtain ⟨K', he, hiff⟩ :=
    body_alone_changes_iff hK plainName_i.2 hx hb covered_holeBody ascending
  refine ⟨K, K', hb, he, fun hsame => ?_⟩
  have hcells := hiff.mp hsame leafOfOrigin.1
  rw [bodyCovering_triangleBody, bodyCovering_holeBody] at hcells
  exact absurd (hcells.mp (List.mem_singleton_self _)) (by decide)

end RedisS2Geo.Guarantees
