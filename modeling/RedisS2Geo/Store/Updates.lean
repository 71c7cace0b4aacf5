import RedisS2Geo.Store.Contents

/-!
# Updates of a keyspace that stands for contents

Creating an index, storing a polygon, removing a polygon and dropping an empty
index each lead to the keyspace that stands for the changed contents. Cells are
shared between polygons: a set appears with its first polygon and vanishes with
its last one, without touching the memberships of the others.
-/

namespace RedisS2Geo.Store
open Foundation Source Covering

variable {env : Environment} {K : Keyspace Bytes} {A : Contents}
variable {indexName polygonName body : Bytes} {m : Polygons}

/-! ### Well-formed contents -/

theorem PolygonsWellFormed.empty : PolygonsWellFormed env ∅ where
  name hp := absurd hp Finmap.notMem_empty
  terms hb := by simp at hb

theorem PolygonsWellFormed.insert (h : PolygonsWellFormed env m) (hp : PlainName polygonName)
    (hb : bodyTerms env body ≠ ∅) : PolygonsWellFormed env (m.insert polygonName body) where
  name {p} hm := by
    rcases Finmap.mem_insert.mp hm with rfl | hm
    · exact hp
    · exact h.name hm
  terms {p b} hl := by
    by_cases hpe : p = polygonName
    · subst hpe
      obtain rfl : body = b := by simpa using hl
      exact hb
    · exact h.terms (by rwa [Finmap.lookup_insert_of_ne m hpe] at hl)

theorem PolygonsWellFormed.erase (h : PolygonsWellFormed env m) (polygonName : Bytes) :
    PolygonsWellFormed env (m.erase polygonName) where
  name hm := h.name (Finmap.mem_erase.mp hm).2
  terms {p b} hl := by
    have hpe : p ≠ polygonName := by
      rintro rfl
      simp at hl
    exact h.terms (by rwa [Finmap.lookup_erase_ne hpe] at hl)

/-- Contents stay well formed when one index is replaced by a well-formed one. -/
theorem Contents.WellFormed.update (h : A.WellFormed env) {n : Bytes} {x : Option Polygons}
    (hx : ∀ m, x = some m → PlainName n ∧ PolygonsWellFormed env m) :
    Contents.WellFormed env (Function.update A n x) where
  name {n' m'} hn' := by
    by_cases he : n' = n
    · subst he
      exact (hx m' (by simpa using hn')).1
    · exact h.name (by simpa [he] using hn')
  polygons {n' m'} hn' := by
    by_cases he : n' = n
    · subst he
      exact (hx m' (by simpa using hn')).2
    · exact h.polygons (by simpa [he] using hn')

/-! ### Cells of one polygon -/

/-- The cells keys of some terms, all without zero bytes, are told apart by the terms. -/
theorem exists_cells_iff {T : Finset Bytes} (hT : ∀ t ∈ T, NulFree t) {n n' t : Bytes} :
    (∃ u ∈ T, StoreKey.cells n t = .cells n' (cString u)) ↔ n = n' ∧ t ∈ T := by
  constructor
  · rintro ⟨u, hu, he⟩
    simp only [StoreKey.cells.injEq] at he
    exact ⟨he.1, by rwa [he.2, cString_eq_self (hT u hu)]⟩
  · rintro ⟨rfl, ht⟩
    exact ⟨t, ht, by rw [cString_eq_self (hT t ht)]⟩

/-- The members of a cell after a polygon left its old terms. -/
theorem remove_member {S old : Finset Bytes} {p t : Bytes} (hS : p ∈ S ↔ t ∈ old) :
    (if t ∈ old then dropMember p (ofSet S) else ofSet S) = ofSet (S.erase p) := by
  split
  · exact dropMember_ofSet p S
  · rw [Finset.erase_eq_of_notMem (hS.not.mpr ‹_›)]

/-- The members of a cell after the old terms of a polygon are replaced by new ones. -/
theorem replace_member {S old new : Finset Bytes} {p t : Bytes} (hS : p ∈ S ↔ t ∈ old) :
    (if t ∈ new then addMembers {p} (if t ∈ old then dropMember p (ofSet S) else ofSet S)
      else if t ∈ old then dropMember p (ofSet S) else ofSet S) =
      ofSet (if t ∈ new then insert p S else S.erase p) := by
  rw [remove_member hS]
  split
  · rw [addMembers_ofSet]
    congr 1
    ext q
    by_cases hq : q = p <;> simp [hq]
  · rfl

/-- The polygons with a term after one polygon got a new body. -/
theorem filter_termsOf_insert (t : Bytes) :
    ((m.insert polygonName body).keys.filter fun q =>
        t ∈ termsOf env (m.insert polygonName body) q) =
      if t ∈ bodyTerms env body then
        insert polygonName (m.keys.filter fun q => t ∈ termsOf env m q)
      else (m.keys.filter fun q => t ∈ termsOf env m q).erase polygonName := by
  ext q
  rw [mem_filter_termsOf]
  by_cases hq : q = polygonName
  · subst hq
    split <;> simp [*]
  · rw [termsOf_insert_of_ne hq]
    split <;> simp only [Finset.mem_insert, Finset.mem_erase, mem_filter_termsOf] <;> simp [hq]

/-- The polygons with a term after one polygon was deleted. -/
theorem filter_termsOf_erase (t : Bytes) :
    ((m.erase polygonName).keys.filter fun q => t ∈ termsOf env (m.erase polygonName) q) =
      (m.keys.filter fun q => t ∈ termsOf env m q).erase polygonName := by
  ext q
  rw [mem_filter_termsOf, Finset.mem_erase, mem_filter_termsOf]
  by_cases hq : q = polygonName
  · subst hq
    simp
  · simp [termsOf_erase_of_ne hq, hq]

namespace Represents

/-! ### Creating an index -/

theorem create (h : Represents env K A) (hd : entityDelim ∉ cString indexName)
    (hi : PlainName (cString indexName)) (hA : A (cString indexName) = none) :
    Represents env (withMarker K indexName) (Function.update A (cString indexName) (some ∅)) := by
  have hval : K (createIndexMetaHashKey indexName) = none :=
    h.eq_none_of_absent (k := .info (cString indexName)) hd hA
  have hmarker : putField indexParamsKey indexParamsValue none = ofHash markerHash := by
    simp [putField, markerHash]
  rw [withMarker, hval, hmarker, createIndexMetaHashKey_eq]
  refine h.update _ hd (some ∅) (h.wellFormed.update ?_) ?_ ?_
  · rintro _ ⟨⟩
    exact ⟨hi, .empty⟩
  · intro k hk
    rw [update_bytes_apply _ _ k (.info (cString indexName)) hk,
      h.at_key k fun hdel => hd (hk ▸ hdel)]
    cases k <;> obtain rfl := hk <;>
      simp [Contents.valueAt, Contents.polygons, hA]
  · intro key hkey
    exact Function.update_of_ne (hkey (.info (cString indexName)) rfl) _ _

/-! ### Storing and removing a polygon -/

/-- Replacing the polygons of an existing index, kind of key by kind of key. -/
theorem replace {m' : Polygons} {K' : Keyspace Bytes} (h : Represents env K A)
    (hA : A (cString indexName) = some m) (hwf : PolygonsWellFormed env m')
    (hinfo : K' (StoreKey.info (cString indexName)).bytes =
      K (StoreKey.info (cString indexName)).bytes)
    (hpolygons : K' (StoreKey.polygons (cString indexName)).bytes = ofHash m')
    (hcells : ∀ t, K' (StoreKey.cells (cString indexName) t).bytes =
      ofSet (m'.keys.filter fun q => t ∈ termsOf env m' q))
    (hcellinfo : ∀ q, K' (StoreKey.cellinfo (cString indexName) q).bytes =
      ofSet (termsOf env m' q))
    (houtside : ∀ key, Outside indexName key → K' key = K key) :
    Represents env K' (Function.update A (cString indexName) (some m')) := by
  have hd : entityDelim ∉ cString indexName := (h.wellFormed.name hA).notMem
  have hpoly : Contents.polygons (Function.update A (cString indexName) (some m'))
      (cString indexName) = m' := Contents.polygons_of_some (Function.update_self _ _ _)
  refine h.update _ hd _ (h.wellFormed.update ?_) ?_ houtside
  · rintro _ ⟨⟩
    exact ⟨h.wellFormed.name hA, hwf⟩
  · intro k hk
    cases k with
    | info n =>
        obtain rfl := hk
        rw [hinfo, h.at_key (.info (cString indexName)) hd]
        simp [Contents.valueAt, hA]
    | polygons n =>
        obtain rfl := hk
        rw [hpolygons, Contents.valueAt, hpoly]
    | cells n t =>
        obtain rfl := hk
        rw [hcells, Contents.valueAt, hpoly]
    | cellinfo n q =>
        obtain rfl := hk
        rw [hcellinfo, Contents.valueAt, hpoly]

/-- The keyspace after the three calls of `SetPolygonCommand` that write. -/
theorem put (h : Represents env K A) (hA : A (cString indexName) = some m)
    (hp : PlainName polygonName) (hb : bodyTerms env body ≠ ∅) :
    Represents env
      (withCells
        (withoutCells (withBody K indexName polygonName body) indexName polygonName
          (termsOf env m polygonName))
        indexName polygonName (bodyTerms env body))
      (Function.update A (cString indexName) (some (m.insert polygonName body))) := by
  have hd : entityDelim ∉ cString indexName := (h.wellFormed.name hA).notMem
  have hpoly : A.polygons (cString indexName) = m := Contents.polygons_of_some hA
  have hold : ∀ t ∈ termsOf env m polygonName, NulFree t := fun _ => nulFree_of_mem_termsOf
  have hnew : ∀ t ∈ bodyTerms env body, NulFree t := fun _ => nulFree_of_mem_indexPolygon
  apply h.replace hA ((h.wellFormed.polygons hA).insert hp hb)
  · rw [withCells_of_ne hd _ (Or.inl rfl), withoutCells_of_ne hd _ (Or.inl rfl),
      withBody_of_ne K indexName polygonName body rfl (by simp)]
  · rw [withCells_of_ne hd _ (Or.inr rfl), withoutCells_of_ne hd _ (Or.inr rfl), withBody,
      createIndexPolygonsHashKey_eq, Function.update_self,
      h.at_key (.polygons (cString indexName)) hd, Contents.valueAt, hpoly, putField_ofHash]
  · intro t
    rw [withCells_apply (by exact hd) hd, withoutCells_apply (by exact hd) hd,
      withBody_of_ne K indexName polygonName body rfl (by simp),
      h.at_key (.cells (cString indexName) t) hd, Contents.valueAt, hpoly, filter_termsOf_insert]
    simp only [exists_cells_iff hold, exists_cells_iff hnew, true_and, reduceCtorEq, if_false]
    exact replace_member mem_filter_termsOf
  · intro q
    rw [withCells_apply (by exact hd) hd, withoutCells_apply (by exact hd) hd,
      withBody_of_ne K indexName polygonName body rfl (by simp),
      h.at_key (.cellinfo (cString indexName) q) hd, Contents.valueAt, hpoly, hp.cString_eq]
    by_cases hq : q = polygonName
    · subst hq
      simp
    · simp [hq, termsOf_insert_of_ne hq]
  · intro key hkey
    rw [withCells_outside hkey, withoutCells_outside hkey]
    exact Function.update_of_ne (hkey (.polygons (cString indexName)) rfl) _ _

/-- The keyspace after the two calls of `DeletePolygonCommand` that write. -/
theorem remove (h : Represents env K A) (hA : A (cString indexName) = some m)
    (hp : PlainName polygonName) :
    Represents env
      (withoutCells (withoutBody K indexName polygonName) indexName polygonName
        (termsOf env m polygonName))
      (Function.update A (cString indexName) (some (m.erase polygonName))) := by
  have hd : entityDelim ∉ cString indexName := (h.wellFormed.name hA).notMem
  have hpoly : A.polygons (cString indexName) = m := Contents.polygons_of_some hA
  have hold : ∀ t ∈ termsOf env m polygonName, NulFree t := fun _ => nulFree_of_mem_termsOf
  apply h.replace hA ((h.wellFormed.polygons hA).erase polygonName)
  · rw [withoutCells_of_ne hd _ (Or.inl rfl),
      withoutBody_of_ne K indexName polygonName rfl (by simp)]
  · rw [withoutCells_of_ne hd _ (Or.inr rfl), withoutBody, createIndexPolygonsHashKey_eq,
      Function.update_self, h.at_key (.polygons (cString indexName)) hd, Contents.valueAt, hpoly,
      dropField_ofHash]
  · intro t
    rw [withoutCells_apply (by exact hd) hd,
      withoutBody_of_ne K indexName polygonName rfl (by simp),
      h.at_key (.cells (cString indexName) t) hd, Contents.valueAt, hpoly, filter_termsOf_erase]
    simp only [exists_cells_iff hold, true_and, reduceCtorEq, if_false]
    exact remove_member mem_filter_termsOf
  · intro q
    rw [withoutCells_apply (by exact hd) hd,
      withoutBody_of_ne K indexName polygonName rfl (by simp),
      h.at_key (.cellinfo (cString indexName) q) hd, Contents.valueAt, hpoly, hp.cString_eq]
    by_cases hq : q = polygonName
    · subst hq
      simp
    · simp [hq, termsOf_erase_of_ne hq]
  · intro key hkey
    rw [withoutCells_outside hkey]
    exact Function.update_of_ne (hkey (.polygons (cString indexName)) rfl) _ _

/-- Deleting the body of a polygon that has none changes nothing. -/
theorem withoutBody_absent (h : Represents env K A) (hd : entityDelim ∉ cString indexName)
    (hp : polygonName ∉ A.polygons (cString indexName)) :
    withoutBody K indexName polygonName = K := by
  have hval := asHash_eq_some_iff.mp (h.asHash_polygons hd)
  rw [withoutBody, hval, dropField_ofHash, finmap_erase_of_notMem hp, ← hval,
    Function.update_eq_self]

/-! ### Dropping an index -/

/-- The keyspace after the last call of `DeleteIndex`. -/
theorem drop (h : Represents env K A) (hA : A (cString indexName) = some ∅) :
    Represents env (Function.update K (createIndexMetaHashKey indexName) none)
      (Function.update A (cString indexName) none) := by
  have hd : entityDelim ∉ cString indexName := (h.wellFormed.name hA).notMem
  rw [createIndexMetaHashKey_eq]
  refine h.update _ hd none (h.wellFormed.update (by simp)) ?_ ?_
  · intro k hk
    rw [update_bytes_apply _ _ k (.info (cString indexName)) hk,
      h.at_key k fun hdel => hd (hk ▸ hdel)]
    cases k <;> obtain rfl := hk <;> simp [Contents.valueAt, Contents.polygons, hA]
  · intro key hkey
    exact Function.update_of_ne (hkey (.info (cString indexName)) rfl) _ _

end Represents

end RedisS2Geo.Store
