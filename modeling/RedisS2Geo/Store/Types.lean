import RedisS2Geo.Store.Effects

/-!
# The types of the keys

Every kind of key has one type of value: the marker and the bodies are hashes, cells
and cell infos are sets. A write of the module goes to a key that is absent or has
this type, and leaves it absent or of this type. Both are closed under sequencing.
-/

namespace RedisS2Geo.Store
open Foundation Source

/-- An absent key fits, and a value of the type that the module keeps there. -/
def StoreKey.Fits : StoreKey → Option (Value Bytes) → Prop
  | .info _, v | .polygons _, v => asHash v ≠ none
  | .cells _ _, v | .cellinfo _ _, v => asSet v ≠ none

/-- No key holds a value of any other type than hashes and sets. -/
theorem StoreKey.not_fits_other (k : StoreKey) (type payload : Bytes) :
    ¬ k.Fits (some (.other type payload)) := by
  cases k <;> simp [Fits, asHash, asSet]

/-- Two keyspaces that differ at keys of one index only, and there in values that fit. -/
def Changes (n : Bytes) (K K' : Keyspace Bytes) : Prop :=
  ∀ key, K' key ≠ K key → ∃ k : StoreKey, k.index = n ∧ key = k.bytes ∧
    k.Fits (K key) ∧ k.Fits (K' key)

section
variable {n : Bytes} {K K₁ K₂ : Keyspace Bytes}

theorem Changes.refl (n : Bytes) (K : Keyspace Bytes) : Changes n K K :=
  fun _ h => absurd rfl h

theorem Changes.trans (h : Changes n K K₁) (h' : Changes n K₁ K₂) : Changes n K K₂ := by
  intro key hne
  by_cases h₁ : K₁ key = K key
  · obtain ⟨k, hk, he, hf, hf'⟩ := h' key (h₁ ▸ hne)
    exact ⟨k, hk, he, h₁ ▸ hf, hf'⟩
  · obtain ⟨k, hk, he, hf, hf₁⟩ := h key h₁
    by_cases h₂ : K₂ key = K₁ key
    · exact ⟨k, hk, he, hf, h₂ ▸ hf₁⟩
    · -- the two changes are at the same key of the index
      obtain ⟨k', hk', he', -, hf₂⟩ := h' key h₂
      obtain rfl : k = k' := by
        by_contra hkk
        exact StoreKey.bytes_ne_of_index k k' (hk.trans hk'.symm) hkk (he.symm.trans he')
      exact ⟨k, hk, he, hf, hf₂⟩

/-- A write to one key of the index, when it changes a value that fits to one that fits. -/
theorem changes_update (k : StoreKey) {v : Option (Value Bytes)}
    (h : v ≠ K k.bytes → k.Fits (K k.bytes) ∧ k.Fits v) :
    Changes k.index K (Function.update K k.bytes v) := by
  intro key hne
  by_cases hk : key = k.bytes
  · subst hk
    rw [Function.update_self] at hne ⊢
    exact ⟨k, rfl, rfl, h hne⟩
  · rw [Function.update_of_ne hk] at hne
    exact absurd rfl hne

end

/-! ### The values after a write -/

section
variable {v : Option (Value Bytes)}

/-- A hash command changes hashes into hashes. -/
theorem asHash_of_elim_ne {f : Polygons → Polygons}
    (h : ((asHash v).elim v fun fields => ofHash (f fields)) ≠ v) :
    asHash v ≠ none ∧ asHash ((asHash v).elim v fun fields => ofHash (f fields)) ≠ none := by
  cases hv : asHash v with
  | none => exact absurd (by rw [hv]; rfl) h
  | some fields => simp

/-- A set command changes sets into sets. -/
theorem asSet_of_elim_ne {f : Finset Bytes → Finset Bytes}
    (h : ((asSet v).elim v fun s => ofSet (f s)) ≠ v) :
    asSet v ≠ none ∧ asSet ((asSet v).elim v fun s => ofSet (f s)) ≠ none := by
  cases hv : asSet v with
  | none => exact absurd (by rw [hv]; rfl) h
  | some s => simp

end

/-! ### The effects -/

section
variable {env : Environment} {ω : Orders} {K K' : Keyspace Bytes} {indexName polygonName : Bytes}

theorem changes_withMarker : Changes (cString indexName) K (withMarker K indexName) :=
  changes_update (.info (cString indexName)) asHash_of_elim_ne

theorem changes_withBody (body : Bytes) :
    Changes (cString indexName) K (withBody K indexName polygonName body) :=
  changes_update (.polygons (cString indexName)) asHash_of_elim_ne

theorem changes_withoutBody :
    Changes (cString indexName) K (withoutBody K indexName polygonName) :=
  changes_update (.polygons (cString indexName)) asHash_of_elim_ne

/-- The same set command on many cells of the index. -/
theorem changes_cells (cells : Finset Bytes) {f : Finset Bytes → Finset Bytes}
    (hK : ∀ key, K' key = if key ∈ cells.image (createIndexCellsSetKey indexName) then
      (asSet (K key)).elim (K key) fun s => ofSet (f s) else K key) :
    Changes (cString indexName) K K' := by
  intro key hne
  rw [hK] at hne ⊢
  split at hne
  · rename_i hmem
    obtain ⟨t, -, rfl⟩ := Finset.mem_image.mp hmem
    rw [if_pos hmem]
    exact ⟨.cells (cString indexName) (cString t), rfl, rfl, asSet_of_elim_ne hne⟩
  · exact absurd rfl hne

theorem changes_withCells (cells : Finset Bytes) :
    Changes (cString indexName) K (withCells K indexName polygonName cells) := by
  have hinfo : Changes (cString indexName) K
      (Function.update K (createPolygonCellInfoSetKey indexName polygonName)
        (addMembers cells (K (createPolygonCellInfoSetKey indexName polygonName)))) :=
    changes_update (.cellinfo (cString indexName) (cString polygonName)) asSet_of_elim_ne
  exact hinfo.trans (changes_cells cells fun key => rfl)

/-- The cell info is deleted only after it was read as a set. -/
theorem changes_withoutCells {old : Finset Bytes}
    (h : asSet (K (createPolygonCellInfoSetKey indexName polygonName)) ≠ none) :
    Changes (cString indexName) K (withoutCells K indexName polygonName old) := by
  have hinfo : Changes (cString indexName) K
      (Function.update K (createPolygonCellInfoSetKey indexName polygonName) none) :=
    changes_update (.cellinfo (cString indexName) (cString polygonName))
      fun _ => ⟨h, by simp [StoreKey.Fits]⟩
  exact hinfo.trans (changes_cells old fun key => rfl)

theorem changes_withPolygon {body : Bytes} {old : Finset Bytes}
    (h : asSet (K (createPolygonCellInfoSetKey indexName polygonName)) = some old)
    (cells : Finset Bytes) :
    Changes (cString indexName) K (withPolygon K indexName polygonName body old cells) := by
  rw [withPolygon_eq h]
  have hinfo : asSet (withBody K indexName polygonName body
      (createPolygonCellInfoSetKey indexName polygonName)) ≠ none := by
    rw [withBody_cellinfo, h]
    exact Option.some_ne_none _
  exact (changes_withBody body).trans ((changes_withoutCells hinfo).trans (changes_withCells cells))

theorem changes_withoutPolygon {old : Finset Bytes}
    (h : asSet (K (createPolygonCellInfoSetKey indexName polygonName)) = some old) :
    Changes (cString indexName) K (withoutPolygon K indexName polygonName old) := by
  have hinfo : asSet (withoutBody K indexName polygonName
      (createPolygonCellInfoSetKey indexName polygonName)) ≠ none := by
    rw [withoutBody_cellinfo, h]
    exact Option.some_ne_none _
  exact changes_withoutBody.trans (changes_withoutCells hinfo)

/-- The loop of `DeleteIndex` leaves the marker as it is. -/
theorem clearNames_marker (hi : entityDelim ∉ cString indexName) {names : List Bytes}
    {done : Bool} (h : clearNames indexName names K = some (done, K')) :
    K' (createIndexMetaHashKey indexName) = K (createIndexMetaHashKey indexName) := by
  apply clearNames_invariant (fun K' =>
    K' (createIndexMetaHashKey indexName) = K (createIndexMetaHashKey indexName)) ?_ h rfl
  intro K₁ p old hK₁ hold
  rw [← hK₁, withoutPolygon, createIndexMetaHashKey_eq, withoutCells_of_ne hi _ (Or.inl rfl),
    withoutBody_of_ne K₁ indexName p rfl (by simp)]

theorem changes_clearNames {names : List Bytes} {done : Bool}
    (h : clearNames indexName names K = some (done, K')) : Changes (cString indexName) K K' := by
  apply clearNames_invariant (fun K' => Changes (cString indexName) K K') ?_ h (Changes.refl _ K)
  intro K₁ p old hK₁ hold
  exact hK₁.trans (changes_withoutPolygon hold)

/-- An existing index has a hash at its meta key. -/
theorem IndexExists.asHash_ne_none (h : IndexExists K indexName) :
    asHash (K (createIndexMetaHashKey indexName)) ≠ none := by
  intro hnone
  have hm := h.marker
  simp [markerStatus, hnone] at hm

theorem Effect.changes {c : Command} {o : Outcome} (h : Effect env ω K c o K') {i : Bytes}
    (hi : c.args.head? = some i) : Changes (cString i) K K' := by
  cases h with
  | unchanged => exact Changes.refl _ K
  | created hx =>
      obtain rfl := Option.some.inj hi
      exact changes_withMarker
  | stored hx hp hb hold =>
      obtain rfl := Option.some.inj hi
      exact changes_withPolygon hold _
  | removed hx hp hold =>
      obtain rfl := Option.some.inj hi
      exact changes_withoutPolygon hold
  | cleared hx hf hloop =>
      obtain rfl := Option.some.inj hi
      refine (changes_clearNames hloop).trans (changes_update (.info (cString _)) fun _ => ?_)
      rw [← createIndexMetaHashKey_eq, clearNames_marker hx.accepted.notMem hloop]
      exact ⟨hx.asHash_ne_none, by simp [StoreKey.Fits]⟩
  | stopped hx hf hloop =>
      obtain rfl := Option.some.inj hi
      exact changes_clearNames hloop

end

end RedisS2Geo.Store
