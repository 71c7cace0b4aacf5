import RedisS2Geo.Source.Index

/-!
# The four kinds of keys

All keys of all indexes live in one flat namespace. A key is told apart by the
text before its first delimiter, which names the index, and by the text behind
it, which starts with the kind.
-/

namespace RedisS2Geo.Store
open Foundation Source

/-- A key of the module, made of C strings. -/
inductive StoreKey where
  | info (index : Bytes)
  | polygons (index : Bytes)
  | cells (index term : Bytes)
  | cellinfo (index polygon : Bytes)
  deriving DecidableEq

/-- The kinds of keys. -/
inductive KeyKind where
  | info
  | polygons
  | cells
  | cellinfo
  deriving DecidableEq

namespace StoreKey

/-- The kind of a key. -/
def kind : StoreKey → KeyKind
  | info _ => .info
  | polygons _ => .polygons
  | cells _ _ => .cells
  | cellinfo _ _ => .cellinfo

/-- The index a key belongs to. -/
def index : StoreKey → Bytes
  | info n => n
  | polygons n => n
  | cells n _ => n
  | cellinfo n _ => n

/-- The text behind the first delimiter. -/
def tail : StoreKey → Bytes
  | info _ => indexMetaSuffix
  | polygons _ => indexPolygonsSuffix
  | cells _ t => indexCellsSuffix ++ entityDelim :: t
  | cellinfo _ p => polygonCellinfoSuffix ++ entityDelim :: p

/-- The key as Redis sees it. -/
def bytes (k : StoreKey) : Bytes := k.index ++ entityDelim :: k.tail

/-- The index part of a key has no delimiter. -/
def WellFormed (k : StoreKey) : Prop := entityDelim ∉ k.index

/-- Index and tail determine the key, kind and last argument included. -/
theorem eq_of_index_tail {k k' : StoreKey} (hi : k.index = k'.index) (ht : k.tail = k'.tail) :
    k = k' := by
  cases k <;> cases k' <;>
    simp_all [index, tail, indexMetaSuffix, indexPolygonsSuffix, indexCellsSuffix,
      polygonCellinfoSuffix, ascii, chr]

/-- Different keys are printed differently. -/
theorem bytes_inj {k k' : StoreKey} (h : k.WellFormed) (h' : k'.WellFormed) :
    k.bytes = k'.bytes ↔ k = k' := by
  constructor
  · intro he
    obtain ⟨hi, ht⟩ := (append_delim_inj h h').mp he
    exact eq_of_index_tail hi ht
  · rintro rfl
    rfl

/-- Keys of one index are told apart by kind and arguments. -/
theorem bytes_ne_of_index (k k' : StoreKey) (hi : k.index = k'.index) (h : k ≠ k') :
    k.bytes ≠ k'.bytes := by
  intro he
  rw [bytes, bytes, hi, List.append_right_inj, List.cons.injEq] at he
  exact h (eq_of_index_tail hi he.2)

/-- The keys of an index are those that start with its name and the delimiter. -/
theorem startsWith_iff {n : Bytes} {k : StoreKey} (hn : entityDelim ∉ n) (hk : k.WellFormed) :
    n ++ [entityDelim] <+: k.bytes ↔ k.index = n := by
  constructor
  · rintro ⟨rest, he⟩
    rw [List.append_assoc, List.singleton_append] at he
    exact ((append_delim_inj hn hk).mp he).1.symm
  · rintro rfl
    exact ⟨k.tail, by simp [bytes]⟩

end StoreKey

/-! ### The printed keys -/

theorem createIndexMetaHashKey_eq (indexName : Bytes) :
    createIndexMetaHashKey indexName = (StoreKey.info (cString indexName)).bytes := rfl

theorem createIndexPolygonsHashKey_eq (indexName : Bytes) :
    createIndexPolygonsHashKey indexName = (StoreKey.polygons (cString indexName)).bytes := rfl

theorem createIndexCellsSetKey_eq (indexName cellId : Bytes) :
    createIndexCellsSetKey indexName cellId =
      (StoreKey.cells (cString indexName) (cString cellId)).bytes := rfl

theorem createIndexCellsSetKeyCStr_eq (indexName cCellId : Bytes) :
    createIndexCellsSetKeyCStr indexName cCellId =
      (StoreKey.cells (cString indexName) (cString cCellId)).bytes := rfl

theorem createPolygonCellInfoSetKey_eq (indexName polygonName : Bytes) :
    createPolygonCellInfoSetKey indexName polygonName =
      (StoreKey.cellinfo (cString indexName) (cString polygonName)).bytes := rfl

/-! ### Accepted names -/

/-- A name that `ValidateEntityName` accepts. -/
def Accepted (name : Bytes) : Prop := validateEntityName name = .ok ()

instance (name : Bytes) : Decidable (Accepted name) :=
  inferInstanceAs (Decidable (_ = _))

theorem accepted_iff {name : Bytes} :
    Accepted name ↔ name ≠ [] ∧ entityDelim ∉ cString name := by
  simp [Accepted, validateEntityName]

theorem Accepted.notMem {name : Bytes} (h : Accepted name) : entityDelim ∉ cString name :=
  (accepted_iff.mp h).2

theorem validateEntityName_error {name : Bytes} (h : ¬ Accepted name) :
    validateEntityName name = .error .invalidEntityName := by
  rw [Accepted, validateEntityName] at h
  rw [validateEntityName]
  split at h
  · rw [if_pos ‹_›]
  · exact absurd rfl h

end RedisS2Geo.Store
