import RedisS2Geo.Store.Keys

/-!
# What each function of the index does to an arbitrary keyspace

One equation for each function, without any assumption on the keyspace: keys of
another type and names with zero bytes are covered. The commands and all their
invariants are derived from these equations.
-/

namespace RedisS2Geo.Store
open Foundation Source

@[simp] theorem bind_apply {α β : Type} (m : ModuleM α) (f : α → ModuleM β)
    (K : Keyspace Bytes) : (m >>= f) K = (m K).bind fun r => f r.1 r.2 := rfl

@[simp] theorem pure_apply {α : Type} (a : α) (K : Keyspace Bytes) :
    (pure a : ModuleM α) K = some (a, K) := rfl

@[simp] theorem map_apply {α β : Type} (f : α → β) (m : ModuleM α) (K : Keyspace Bytes) :
    (f <$> m) K = (m K).map fun r => (f r.1, r.2) := by
  change (m K).bind (fun r => some (f r.1, r.2)) = _
  rw [Option.map_eq_bind]
  rfl

@[simp] theorem redisModuleCall_apply (call : Call Bytes) (K : Keyspace Bytes) :
    redisModuleCall call K = some (call K) := rfl

@[simp] theorem stringFromArrayElement_error (text : String) (idx : Nat) (K : Keyspace Bytes) :
    stringFromArrayElement (.error text) idx K = none := rfl

/-! ### The index itself -/

/-- The verdict of `ValidateIndex` on the value of the meta key. -/
def markerStatus (v : Option (Value Bytes)) : Ret Unit :=
  match asHash v with
  | none => .error .invalidIndex
  | some fields =>
      match fields.lookup indexParamsKey with
      | none => .error .noSuchIndex
      | some value =>
          if indexParamsValue ≠ cString value then .error .invalidIndex else .ok ()

theorem markerStatus_error {v : Option (Value Bytes)} {e : S2GeoErr}
    (h : markerStatus v = .error e) : e = .noSuchIndex ∨ e = .invalidIndex := by
  unfold markerStatus at h
  split at h
  · cases h
    exact Or.inr rfl
  · split at h
    · cases h
      exact Or.inl rfl
    · split at h <;> cases h
      exact Or.inr rfl

theorem validateIndex_eq (indexName : Bytes) (K : Keyspace Bytes) :
    validateIndex indexName K =
      some (markerStatus (K (createIndexMetaHashKey indexName)), K) := by
  simp only [validateIndex, bind_apply, redisModuleCall_apply, Option.bind_some, hget,
    markerStatus]
  cases asHash (K (createIndexMetaHashKey indexName)) with
  | none => rfl
  | some fields =>
      cases hl : fields.lookup indexParamsKey with
      | none => simp [hl]
      | some value =>
          simp only [hl]
          split <;> rfl

/-- The keyspace after `CreateIndex`. -/
def withMarker (K : Keyspace Bytes) (indexName : Bytes) : Keyspace Bytes :=
  Function.update K (createIndexMetaHashKey indexName)
    (putField indexParamsKey indexParamsValue (K (createIndexMetaHashKey indexName)))

theorem createIndex_eq (indexName : Bytes) (K : Keyspace Bytes) :
    createIndex indexName K = some (.ok (), withMarker K indexName) := by
  simp [createIndex, withMarker]

/-! ### Bodies -/

/-- The keyspace after `SetPolygonBody`. -/
def withBody (K : Keyspace Bytes) (indexName polygonName polygonBody : Bytes) : Keyspace Bytes :=
  Function.update K (createIndexPolygonsHashKey indexName)
    (putField polygonName polygonBody (K (createIndexPolygonsHashKey indexName)))

/-- The keyspace after `DeletePolygonBody`. -/
def withoutBody (K : Keyspace Bytes) (indexName polygonName : Bytes) : Keyspace Bytes :=
  Function.update K (createIndexPolygonsHashKey indexName)
    (dropField polygonName (K (createIndexPolygonsHashKey indexName)))

theorem setPolygonBody_eq (indexName polygonName polygonBody : Bytes) (K : Keyspace Bytes) :
    setPolygonBody indexName polygonName polygonBody K =
      some (.ok (), withBody K indexName polygonName polygonBody) := by
  simp [setPolygonBody, withBody]

theorem deletePolygonBody_eq (indexName polygonName : Bytes) (K : Keyspace Bytes) :
    deletePolygonBody indexName polygonName K =
      some (.ok (), withoutBody K indexName polygonName) := by
  simp [deletePolygonBody, withoutBody]

/-- The writes to the bodies leave every other key of the index alone. -/
theorem withBody_of_ne (K : Keyspace Bytes) (indexName polygonName polygonBody : Bytes)
    {k : StoreKey} (hi : k.index = cString indexName) (hk : k ≠ .polygons (cString indexName)) :
    withBody K indexName polygonName polygonBody k.bytes = K k.bytes :=
  Function.update_of_ne
    (StoreKey.bytes_ne_of_index k (.polygons (cString indexName)) hi hk) _ _

theorem withoutBody_of_ne (K : Keyspace Bytes) (indexName polygonName : Bytes)
    {k : StoreKey} (hi : k.index = cString indexName) (hk : k ≠ .polygons (cString indexName)) :
    withoutBody K indexName polygonName k.bytes = K k.bytes :=
  Function.update_of_ne
    (StoreKey.bytes_ne_of_index k (.polygons (cString indexName)) hi hk) _ _

/-- The body of a polygon, absent also when the hash has another type. -/
def bodyAt (K : Keyspace Bytes) (indexName polygonName : Bytes) : Option Bytes :=
  (asHash (K (createIndexPolygonsHashKey indexName))).bind fun fields => fields.lookup polygonName

theorem getPolygonBody_eq (indexName polygonName : Bytes) (K : Keyspace Bytes) :
    getPolygonBody indexName polygonName K =
      some ((bodyAt K indexName polygonName).elim (.error .noSuchPolygon) .ok, K) := by
  simp only [getPolygonBody, bind_apply, redisModuleCall_apply, Option.bind_some, hget, bodyAt]
  cases asHash (K (createIndexPolygonsHashKey indexName)) with
  | none => rfl
  | some fields => cases hl : fields.lookup polygonName <;> simp [hl]

theorem getPolygonBodies_eq {K : Keyspace Bytes} {indexName : Bytes}
    {fields : Finmap fun _ : Bytes => Bytes} (polygonNames : List Bytes)
    (h : asHash (K (createIndexPolygonsHashKey indexName)) = some fields) :
    getPolygonBodies indexName polygonNames K =
      some (.ok (.array (polygonNames.map fun p => fields.lookup p)), K) := by
  simp [getPolygonBodies, hmget, h]

theorem listPolygons_eq {K : Keyspace Bytes} {indexName : Bytes}
    {fields : Finmap fun _ : Bytes => Bytes} (ω : Orders)
    (h : asHash (K (createIndexPolygonsHashKey indexName)) = some fields) :
    listPolygons ω indexName K =
      some (.ok (.array ((ω.hkeys.list fields.keys).map some)), K) := by
  simp [listPolygons, hkeys, h]

/-! ### Cells -/

theorem addToCells_eq (indexName polygonName : Bytes) (cells : List Bytes) (K : Keyspace Bytes) :
    addToCells indexName polygonName cells K =
      some ((), addToSets (cells.map (createIndexCellsSetKey indexName)).toFinset
        polygonName K) := by
  induction cells generalizing K with
  | nil => simp [addToCells]
  | cons cell rest ih => simp [addToCells, ih, addToSets_update]

/-- The keyspace after `SetPolygonCells`. -/
def withCells (K : Keyspace Bytes) (indexName polygonName : Bytes) (cells : Finset Bytes) :
    Keyspace Bytes :=
  addToSets (cells.image (createIndexCellsSetKey indexName)) polygonName
    (Function.update K (createPolygonCellInfoSetKey indexName polygonName)
      (addMembers cells (K (createPolygonCellInfoSetKey indexName polygonName))))

theorem enumeration_toFinset (e : Enumeration Bytes) (s : Finset Bytes) :
    (e.list s).toFinset = s := by
  ext a
  simp

theorem enumeration_image (e : Enumeration Bytes) (f : Bytes → Bytes) (s : Finset Bytes) :
    ((e.list s).map f).toFinset = s.image f := by
  ext a
  simp

/-- The order in which the terms are iterated does not matter. -/
theorem setPolygonCells_eq (ω : Orders) (indexName polygonName : Bytes) (cells : Finset Bytes)
    (K : Keyspace Bytes) :
    setPolygonCells ω indexName polygonName cells K =
      some (.ok (), withCells K indexName polygonName cells) := by
  simp only [setPolygonCells, bind_apply, redisModuleCall_apply, Option.bind_some, sadd_snd,
    addToCells_eq, pure_apply, enumeration_image, withCells, enumeration_toFinset]

/-- The loop over the indices of an array reply is a loop over its items. -/
theorem removeFromCells_eq (indexName polygonName : Bytes) (pre rest : List Bytes)
    (K : Keyspace Bytes) :
    removeFromCells indexName polygonName (.array ((pre ++ rest).map some))
        (List.range' pre.length rest.length) K =
      some ((), dropFromSets (rest.map (createIndexCellsSetKey indexName)).toFinset
        polygonName K) := by
  induction rest generalizing pre K with
  | nil => simp [removeFromCells]
  | cons cell rest ih =>
      have hnext := ih (pre ++ [cell])
      simp only [List.append_assoc, List.singleton_append, List.length_append,
        List.length_singleton] at hnext
      simp [removeFromCells, List.range'_succ, stringFromArrayElement, hnext,
        dropFromSets_update, -List.map_append]

/-- The keyspace after `DeletePolygonCells` found a set of terms. -/
def withoutCells (K : Keyspace Bytes) (indexName polygonName : Bytes) (cells : Finset Bytes) :
    Keyspace Bytes :=
  dropFromSets (cells.image (createIndexCellsSetKey indexName)) polygonName
    (Function.update K (createPolygonCellInfoSetKey indexName polygonName) none)

/-- `DeletePolygonCells` when the cell info is a set, in whatever order it is listed. -/
theorem deletePolygonCells_eq {K : Keyspace Bytes} {indexName polygonName : Bytes}
    {cells : Finset Bytes} (ω : Orders)
    (h : asSet (K (createPolygonCellInfoSetKey indexName polygonName)) = some cells) :
    deletePolygonCells ω indexName polygonName K =
      if cells = ∅ then some (.error .noSuchPolygon, K)
      else some (.ok (), withoutCells K indexName polygonName cells) := by
  set key := createPolygonCellInfoSetKey indexName polygonName with hkey
  set items := (ω.smembers key).list cells with hitems
  have hmem : items.toFinset = cells := enumeration_toFinset _ _
  have hloop := removeFromCells_eq indexName polygonName [] items
    (Function.update K key none)
  simp only [List.nil_append, List.length_nil, ← List.range_eq_range', hitems,
    enumeration_image] at hloop
  rw [← hitems] at hloop
  have hlen : items.length = 0 ↔ cells = ∅ := by
    rw [List.length_eq_zero_iff, ← List.toFinset_eq_empty_iff, hmem]
  simp only [deletePolygonCells, bind_apply, redisModuleCall_apply, Option.bind_some, smembers,
    ← hkey, h, ← hitems, callReplyLength, List.length_map, hlen]
  split
  · rfl
  · simp [hloop, withoutCells, ← hkey]

theorem cellinfoKey_notMem (indexName polygonName : Bytes) (cells : Finset Bytes) :
    createPolygonCellInfoSetKey indexName polygonName ∉
      cells.image (createIndexCellsSetKey indexName) := by
  rw [Finset.mem_image]
  rintro ⟨t, -, he⟩
  exact StoreKey.bytes_ne_of_index (.cells (cString indexName) (cString t))
    (.cellinfo (cString indexName) (cString polygonName)) rfl (by simp) he

/-- Without the polygon at any of its keys before, the cell bookkeeping undoes itself. -/
theorem withoutCells_withCells {K : Keyspace Bytes} {indexName polygonName : Bytes}
    {cells : Finset Bytes} (hinfo : K (createPolygonCellInfoSetKey indexName polygonName) = none)
    (hcells : ∀ t ∈ cells, ∀ s, asSet (K (createIndexCellsSetKey indexName t)) = some s →
      polygonName ∉ s) :
    withoutCells (withCells K indexName polygonName cells) indexName polygonName cells = K := by
  calc withoutCells (withCells K indexName polygonName cells) indexName polygonName cells
      = dropFromSets (cells.image (createIndexCellsSetKey indexName)) polygonName
          (addToSets (cells.image (createIndexCellsSetKey indexName)) polygonName K) := by
        -- the cell info is written and deleted again
        rw [withoutCells, withCells, update_addToSets (cellinfoKey_notMem _ _ _),
          Function.update_idem, ← hinfo, Function.update_eq_self]
    _ = K := by
        apply dropFromSets_addToSets
        intro key hkey
        obtain ⟨t, ht, rfl⟩ := Finset.mem_image.mp hkey
        exact hcells t ht

/-- On a cell info key of another type the error text is taken for a list of cells, and
its first item is a null pointer. -/
theorem deletePolygonCells_wrongType {K : Keyspace Bytes} {indexName polygonName : Bytes}
    (ω : Orders) (h : asSet (K (createPolygonCellInfoSetKey indexName polygonName)) = none) :
    deletePolygonCells ω indexName polygonName K = none := by
  obtain ⟨n, hn⟩ : ∃ n, wrongType.length = n + 1 :=
    Nat.exists_eq_succ_of_ne_zero (by decide)
  simp [deletePolygonCells, smembers, h, callReplyLength, hn, List.range_succ_eq_map,
    removeFromCells]

/-! ### Cell updates, key by key -/

theorem mem_image_cellsKey {k : StoreKey} {indexName : Bytes} {cells : Finset Bytes}
    (hk : k.WellFormed) (hi : entityDelim ∉ cString indexName) :
    k.bytes ∈ cells.image (createIndexCellsSetKey indexName) ↔
      ∃ t ∈ cells, k = .cells (cString indexName) (cString t) := by
  simp only [Finset.mem_image, createIndexCellsSetKey_eq]
  constructor
  · rintro ⟨t, ht, he⟩
    have hc : (StoreKey.cells (cString indexName) (cString t)).WellFormed := hi
    exact ⟨t, ht, ((StoreKey.bytes_inj hc hk).mp he).symm⟩
  · rintro ⟨t, ht, rfl⟩
    exact ⟨t, ht, rfl⟩

/-- Writing one key of an index, seen at another key of the same index. -/
theorem update_bytes_apply (K : Keyspace Bytes) (v : Option (Value Bytes)) (k k' : StoreKey)
    (hi : k.index = k'.index) :
    Function.update K k'.bytes v k.bytes = if k = k' then v else K k.bytes := by
  split
  · subst k'
    rw [Function.update_self]
  · exact Function.update_of_ne (StoreKey.bytes_ne_of_index k k' hi ‹_›) _ _

theorem bytes_eq_cellinfoKey {indexName polygonName : Bytes} {k : StoreKey} (hk : k.WellFormed)
    (hi : entityDelim ∉ cString indexName) :
    k.bytes = createPolygonCellInfoSetKey indexName polygonName ↔
      k = .cellinfo (cString indexName) (cString polygonName) := by
  rw [createPolygonCellInfoSetKey_eq]
  exact StoreKey.bytes_inj hk hi

/-- `SetPolygonCells` touches the cell info of the polygon and the named cells. -/
theorem withCells_apply {K : Keyspace Bytes} {indexName polygonName : Bytes}
    {cells : Finset Bytes} {k : StoreKey} (hk : k.WellFormed)
    (hi : entityDelim ∉ cString indexName) :
    withCells K indexName polygonName cells k.bytes =
      if k = .cellinfo (cString indexName) (cString polygonName) then
        addMembers cells (K k.bytes)
      else if ∃ t ∈ cells, k = .cells (cString indexName) (cString t) then
        addMembers {polygonName} (K k.bytes)
      else K k.bytes := by
  simp only [withCells, addToSets, mem_image_cellsKey hk hi]
  by_cases hc : k = .cellinfo (cString indexName) (cString polygonName)
  · subst hc
    simp [createPolygonCellInfoSetKey_eq]
  · rw [Function.update_of_ne ((bytes_eq_cellinfoKey hk hi).not.mpr hc), if_neg hc]

/-- `DeletePolygonCells` touches the cell info of the polygon and the listed cells. -/
theorem withoutCells_apply {K : Keyspace Bytes} {indexName polygonName : Bytes}
    {cells : Finset Bytes} {k : StoreKey} (hk : k.WellFormed)
    (hi : entityDelim ∉ cString indexName) :
    withoutCells K indexName polygonName cells k.bytes =
      if k = .cellinfo (cString indexName) (cString polygonName) then none
      else if ∃ t ∈ cells, k = .cells (cString indexName) (cString t) then
        dropMember polygonName (K k.bytes)
      else K k.bytes := by
  simp only [withoutCells, dropFromSets, mem_image_cellsKey hk hi]
  by_cases hc : k = .cellinfo (cString indexName) (cString polygonName)
  · subst hc
    simp [createPolygonCellInfoSetKey_eq]
  · rw [Function.update_of_ne ((bytes_eq_cellinfoKey hk hi).not.mpr hc), if_neg hc]

/-- The cell updates leave marker and bodies alone. -/
theorem withCells_of_ne {K : Keyspace Bytes} {indexName polygonName : Bytes}
    (hi : entityDelim ∉ cString indexName) (cells : Finset Bytes) {k : StoreKey}
    (hk : k = .info (cString indexName) ∨ k = .polygons (cString indexName)) :
    withCells K indexName polygonName cells k.bytes = K k.bytes := by
  rcases hk with rfl | rfl <;> rw [withCells_apply (by exact hi) hi] <;> simp

theorem withoutCells_of_ne {K : Keyspace Bytes} {indexName polygonName : Bytes}
    (hi : entityDelim ∉ cString indexName) (cells : Finset Bytes) {k : StoreKey}
    (hk : k = .info (cString indexName) ∨ k = .polygons (cString indexName)) :
    withoutCells K indexName polygonName cells k.bytes = K k.bytes := by
  rcases hk with rfl | rfl <;> rw [withoutCells_apply (by exact hi) hi] <;> simp

/-- A byte string that is no key of the index. -/
def Outside (indexName key : Bytes) : Prop :=
  ∀ k : StoreKey, k.index = cString indexName → key ≠ k.bytes

theorem Outside.notMem_cellsKeys {indexName key : Bytes} {cells : Finset Bytes}
    (h : Outside indexName key) : key ∉ cells.image (createIndexCellsSetKey indexName) := by
  rw [Finset.mem_image]
  rintro ⟨t, -, rfl⟩
  exact h (.cells _ (cString t)) rfl rfl

theorem withCells_outside {K : Keyspace Bytes} {indexName polygonName key : Bytes}
    {cells : Finset Bytes} (h : Outside indexName key) :
    withCells K indexName polygonName cells key = K key := by
  rw [withCells, addToSets, if_neg h.notMem_cellsKeys, createPolygonCellInfoSetKey_eq,
    Function.update_of_ne (h (.cellinfo (cString indexName) (cString polygonName)) rfl)]

theorem withoutCells_outside {K : Keyspace Bytes} {indexName polygonName key : Bytes}
    {cells : Finset Bytes} (h : Outside indexName key) :
    withoutCells K indexName polygonName cells key = K key := by
  rw [withoutCells, dropFromSets, if_neg h.notMem_cellsKeys, createPolygonCellInfoSetKey_eq,
    Function.update_of_ne (h (.cellinfo (cString indexName) (cString polygonName)) rfl)]

/-! ### The writing calls of `SetPolygonCommand` -/

/-- The keyspace after the three writing functions, when the cell info was `old` before.
Without old terms `DeletePolygonCells` returns before its first write. -/
def withPolygon (K : Keyspace Bytes) (indexName polygonName polygonBody : Bytes)
    (old cells : Finset Bytes) : Keyspace Bytes :=
  withCells
    (if old = ∅ then withBody K indexName polygonName polygonBody
    else withoutCells (withBody K indexName polygonName polygonBody) indexName polygonName old)
    indexName polygonName cells

theorem withPolygon_of_ne {K : Keyspace Bytes} {indexName polygonName polygonBody : Bytes}
    (hi : entityDelim ∉ cString indexName) (old cells : Finset Bytes) {k : StoreKey}
    (hk : k = .info (cString indexName) ∨ k = .polygons (cString indexName)) :
    withPolygon K indexName polygonName polygonBody old cells k.bytes =
      withBody K indexName polygonName polygonBody k.bytes := by
  rw [withPolygon, withCells_of_ne hi _ hk]
  split
  · rfl
  · exact withoutCells_of_ne hi _ hk

/-! ### Looking terms up -/

theorem getPolygonsInCells_eq {K : Keyspace Bytes} {indexName : Bytes} {cells s : Finset Bytes}
    (ω : Orders)
    (h : unionAt K ((ω.unorderedSet.list cells).map (createIndexCellsSetKeyCStr indexName)) =
      some s) :
    getPolygonsInCells ω indexName cells K =
      some (.ok (.array ((ω.sunion.list s).map some)), K) := by
  simp [getPolygonsInCells, sunion, h]

theorem getPolygonsInCells_wrongType {K : Keyspace Bytes} {indexName : Bytes}
    {cells : Finset Bytes} (ω : Orders)
    (h : unionAt K ((ω.unorderedSet.list cells).map (createIndexCellsSetKeyCStr indexName)) =
      none) :
    getPolygonsInCells ω indexName cells K = some (.error .unknown, K) := by
  simp [getPolygonsInCells, sunion, h]

end RedisS2Geo.Store
