import RedisS2Geo.Covering.Matching
import RedisS2Geo.Store.Operations

/-!
# What a keyspace stands for

The purpose of the store is a map from index names to maps from polygon names to
bodies. The keyspace that stands for such contents is unique: the cell info of a
polygon is the term set of its body, and the members of a cell are the polygons
with that term.

## Implementation notes

Contents are indexed by C strings, since nothing behind a zero byte of an index
name reaches a key. An absent index and an index without polygons share every
key but the one with the marker.
-/

namespace RedisS2Geo.Store
open Foundation Source Covering

/-- The polygons of one index: names with bodies. -/
abbrev Polygons := Finmap fun _ : Bytes => Bytes

/-- The indexes by name, each with its polygons. -/
abbrev Contents := Bytes → Option Polygons

variable (env : Environment)

/-- The covering computed for a body; empty when it does not parse. -/
def bodyCovering (body : Bytes) : List S2CellId := getPolygonCovering env (parsePolygon env body)

/-- The terms under which a body is stored; none when it is refused. -/
def bodyTerms (body : Bytes) : Finset Bytes := indexPolygon env (parsePolygon env body)

/-- The terms of a named polygon; none when it has no body. -/
def termsOf (m : Polygons) (polygonName : Bytes) : Finset Bytes :=
  (m.lookup polygonName).elim ∅ (bodyTerms env)

/-- The polygons of an index, none when it does not exist. -/
def Contents.polygons (A : Contents) (n : Bytes) : Polygons := (A n).getD ∅

/-- The hash at the meta key of an existing index. -/
def markerHash : Polygons := (∅ : Polygons).insert indexParamsKey indexParamsValue

/-- The value that stands at a key for given contents. -/
def Contents.valueAt (A : Contents) : StoreKey → Option (Value Bytes)
  | .info n => if (A n).isSome then ofHash markerHash else none
  | .polygons n => ofHash (A.polygons n)
  | .cells n t => ofSet ((A.polygons n).keys.filter fun p => t ∈ termsOf env (A.polygons n) p)
  | .cellinfo n p => ofSet (termsOf env (A.polygons n) p)

/-- An accepted name without zero bytes, as every stored name is. -/
def PlainName (name : Bytes) : Prop := Accepted name ∧ NulFree name

/-- The polygons of an index have plain names, and every body has terms. -/
structure PolygonsWellFormed (m : Polygons) : Prop where
  name : ∀ {p}, p ∈ m → PlainName p
  terms : ∀ {p body}, m.lookup p = some body → bodyTerms env body ≠ ∅

/-- Indexes have plain names and well-formed polygons. -/
structure Contents.WellFormed (A : Contents) : Prop where
  name : ∀ {n m}, A n = some m → PlainName n
  polygons : ∀ {n m}, A n = some m → PolygonsWellFormed env m

/-- The keyspace stands for the contents and holds nothing else. -/
structure Represents (K : Keyspace Bytes) (A : Contents) : Prop where
  wellFormed : A.WellFormed env
  at_key : ∀ k : StoreKey, k.WellFormed → K k.bytes = A.valueAt env k
  elsewhere : ∀ key : Bytes, (∀ k : StoreKey, k.WellFormed → key ≠ k.bytes) → K key = none

/-! ### Names -/

theorem PlainName.cString_eq {name : Bytes} (h : PlainName name) : cString name = name :=
  cString_eq_self h.2

theorem PlainName.notMem {name : Bytes} (h : PlainName name) : entityDelim ∉ name :=
  h.cString_eq ▸ h.1.notMem

/-! ### Terms of named polygons -/

@[simp] theorem Contents.polygons_of_some {A : Contents} {n : Bytes} {m : Polygons}
    (h : A n = some m) : A.polygons n = m := by
  simp [Contents.polygons, h]

@[simp] theorem Contents.polygons_of_none {A : Contents} {n : Bytes} (h : A n = none) :
    A.polygons n = ∅ := by
  simp [Contents.polygons, h]

variable {env}

theorem termsOf_of_lookup {m : Polygons} {p body : Bytes} (h : m.lookup p = some body) :
    termsOf env m p = bodyTerms env body := by
  simp [termsOf, h]

theorem termsOf_of_notMem {m : Polygons} {p : Bytes} (h : p ∉ m) : termsOf env m p = ∅ := by
  simp [termsOf, Finmap.lookup_eq_none.mpr h]

theorem mem_of_mem_termsOf {m : Polygons} {p t : Bytes} (h : t ∈ termsOf env m p) : p ∈ m := by
  by_contra hp
  simp [termsOf_of_notMem hp] at h

@[simp] theorem termsOf_empty (p : Bytes) : termsOf env ∅ p = ∅ :=
  termsOf_of_notMem Finmap.notMem_empty

@[simp] theorem termsOf_insert_self (m : Polygons) (p body : Bytes) :
    termsOf env (m.insert p body) p = bodyTerms env body :=
  termsOf_of_lookup (Finmap.lookup_insert m)

theorem termsOf_insert_of_ne {m : Polygons} {p q body : Bytes} (h : q ≠ p) :
    termsOf env (m.insert p body) q = termsOf env m q := by
  simp [termsOf, Finmap.lookup_insert_of_ne m h]

@[simp] theorem termsOf_erase_self (m : Polygons) (p : Bytes) :
    termsOf env (m.erase p) p = ∅ :=
  termsOf_of_notMem Finmap.notMem_erase_self

theorem termsOf_erase_of_ne {m : Polygons} {p q : Bytes} (h : q ≠ p) :
    termsOf env (m.erase p) q = termsOf env m q := by
  simp [termsOf, Finmap.lookup_erase_ne h]

theorem nulFree_of_mem_termsOf {m : Polygons} {p t : Bytes} (h : t ∈ termsOf env m p) :
    NulFree t := by
  cases hl : m.lookup p with
  | none => simp [termsOf, hl] at h
  | some body =>
      rw [termsOf_of_lookup hl] at h
      exact nulFree_of_mem_indexPolygon h

/-- A body with a covering was parsed. -/
theorem exists_parsed {body : Bytes} (h : bodyCovering env body ≠ []) :
    ∃ polygon, parsePolygon env body = some polygon := by
  cases hparse : parsePolygon env body with
  | none => simp [bodyCovering, hparse, getPolygonCovering] at h
  | some polygon => exact ⟨polygon, rfl⟩

/-- A body has terms exactly when it has a covering. -/
theorem bodyTerms_eq_empty_iff {body : Bytes} :
    bodyTerms env body = ∅ ↔ bodyCovering env body = [] :=
  indexPolygon_eq_empty_iff

/-- The polygons of an index that have a term. -/
theorem mem_filter_termsOf {m : Polygons} {p t : Bytes} :
    p ∈ m.keys.filter (fun q => t ∈ termsOf env m q) ↔ t ∈ termsOf env m p := by
  simp only [Finset.mem_filter, Finmap.mem_keys, and_iff_right_iff_imp]
  exact mem_of_mem_termsOf

/-- A well-formed polygon has terms. -/
theorem PolygonsWellFormed.termsOf_ne_empty {m : Polygons} (h : PolygonsWellFormed env m)
    {p : Bytes} (hp : p ∈ m) : termsOf env m p ≠ ∅ := by
  obtain ⟨body, hb⟩ := Finmap.mem_iff.mp hp
  rw [termsOf_of_lookup hb]
  exact h.terms hb

/-- The value at a key depends on the index of the key only. -/
theorem Contents.valueAt_congr {A A' : Contents} {k : StoreKey} (h : A k.index = A' k.index) :
    A.valueAt env k = A'.valueAt env k := by
  have hp : A.polygons k.index = A'.polygons k.index := by rw [polygons, polygons, h]
  cases k <;> simp only [StoreKey.index] at h hp <;> simp only [valueAt, h, hp]

/-- No key of an absent index has a value. -/
theorem Contents.valueAt_of_none {A : Contents} {k : StoreKey} (h : A k.index = none) :
    A.valueAt env k = none := by
  cases k <;> simp only [StoreKey.index] at h <;> simp [valueAt, h]

/-! ### Reading a keyspace that stands for contents -/

namespace Represents
variable {K : Keyspace Bytes} {A : Contents} {indexName : Bytes}

/-- The empty keyspace stands for the contents without an index. -/
theorem empty : Represents env (fun _ => none) fun _ => none where
  wellFormed := ⟨by simp, by simp⟩
  at_key _ _ := (Contents.valueAt_of_none rfl).symm
  elsewhere _ _ := rfl

/-- Contents are represented by one keyspace only. -/
theorem unique {K' : Keyspace Bytes} (h : Represents env K A) (h' : Represents env K' A) :
    K = K' := by
  funext key
  by_cases hk : ∃ k : StoreKey, k.WellFormed ∧ key = k.bytes
  · obtain ⟨k, hw, rfl⟩ := hk
    rw [h.at_key k hw, h'.at_key k hw]
  · push Not at hk
    rw [h.elsewhere key hk, h'.elsewhere key hk]

theorem eq_none_of_absent (h : Represents env K A) {k : StoreKey} (hk : k.WellFormed)
    (hA : A k.index = none) : K k.bytes = none := by
  rw [h.at_key k hk, Contents.valueAt_of_none hA]

/-- The verdict on the marker is the existence of the index. -/
theorem markerStatus_eq (h : Represents env K A) (hi : entityDelim ∉ cString indexName) :
    markerStatus (K (createIndexMetaHashKey indexName)) =
      if (A (cString indexName)).isSome then .ok () else .error .noSuchIndex := by
  rw [createIndexMetaHashKey_eq, h.at_key (.info (cString indexName)) hi, Contents.valueAt]
  have hmarker : cString indexParamsValue = indexParamsValue := by decide
  split <;> simp [markerStatus, markerHash, hmarker]

theorem asHash_polygons (h : Represents env K A) (hi : entityDelim ∉ cString indexName) :
    asHash (K (createIndexPolygonsHashKey indexName)) =
      some (A.polygons (cString indexName)) := by
  rw [createIndexPolygonsHashKey_eq, h.at_key (.polygons (cString indexName)) hi,
    Contents.valueAt, asHash_ofHash]

theorem asSet_cellinfo (h : Represents env K A) (hi : entityDelim ∉ cString indexName)
    (polygonName : Bytes) :
    asSet (K (createPolygonCellInfoSetKey indexName polygonName)) =
      some (termsOf env (A.polygons (cString indexName)) (cString polygonName)) := by
  rw [createPolygonCellInfoSetKey_eq,
    h.at_key (.cellinfo (cString indexName) (cString polygonName)) hi, Contents.valueAt,
    asSet_ofSet]

theorem asSet_cells (h : Represents env K A) (hi : entityDelim ∉ cString indexName)
    (cCellId : Bytes) :
    asSet (K (createIndexCellsSetKeyCStr indexName cCellId)) =
      some ((A.polygons (cString indexName)).keys.filter fun p =>
        cString cCellId ∈ termsOf env (A.polygons (cString indexName)) p) := by
  rw [createIndexCellsSetKeyCStr_eq,
    h.at_key (.cells (cString indexName) (cString cCellId)) hi, Contents.valueAt, asSet_ofSet]

/-! ### Changing one index -/

/-- The contents after an update of one index, when the keyspace changed as required at
the keys of this index and nowhere else. -/
theorem update (h : Represents env K A) (K' : Keyspace Bytes)
    (hi : entityDelim ∉ cString indexName) (x : Option Polygons)
    (hwf : Contents.WellFormed env (Function.update A (cString indexName) x))
    (hat : ∀ k : StoreKey, k.index = cString indexName →
      K' k.bytes = Contents.valueAt env (Function.update A (cString indexName) x) k)
    (hout : ∀ key, Outside indexName key → K' key = K key) :
    Represents env K' (Function.update A (cString indexName) x) where
  wellFormed := hwf
  at_key k hk := by
    by_cases hn : k.index = cString indexName
    · exact hat k hn
    · -- a key of another index keeps its value, and so do the contents it shows
      have houtside : Outside indexName k.bytes := by
        intro k' hk' he
        have hw : k'.WellFormed := fun hd => hi (hk' ▸ hd)
        exact hn ((StoreKey.bytes_inj hk hw).mp he ▸ hk')
      rw [hout _ houtside, h.at_key k hk]
      exact Contents.valueAt_congr (Function.update_of_ne hn _ _).symm
  elsewhere key hkey := by
    rw [hout key fun k hk => hkey k fun hd => hi (hk ▸ hd)]
    exact h.elsewhere key hkey

end Represents

end RedisS2Geo.Store
