import RedisS2Geo.Store.Commands

/-!
# The loop of `DeleteIndex` on any keyspace

On a keyspace that stands for contents the loop takes every polygon away. On an
arbitrary one it stops at the first polygon without terms, and it brings the
server down at the first one whose cell info has another type. The loop over the
indices of the listing is restated as a recursion over the names.
-/

namespace RedisS2Geo.Store
open Foundation Source

variable {K : Keyspace Bytes} {indexName polygonName : Bytes}

/-! ### One polygon -/

/-- Without terms there is nothing to take away. -/
theorem withoutCells_eq_self (h : asSet (K (createPolygonCellInfoSetKey indexName polygonName)) =
    some ∅) : withoutCells K indexName polygonName ∅ = K := by
  have hnone : K (createPolygonCellInfoSetKey indexName polygonName) = none := by
    rw [asSet_eq_some_iff.mp h, ofSet_empty]
  rw [withoutCells, Finset.image_empty, dropFromSets_empty, ← hnone, Function.update_eq_self]

/-- The writes to the bodies are not seen in the cell info. -/
theorem withBody_cellinfo (K : Keyspace Bytes) (indexName polygonName body q : Bytes) :
    withBody K indexName polygonName body (createPolygonCellInfoSetKey indexName q) =
      K (createPolygonCellInfoSetKey indexName q) :=
  withBody_of_ne K indexName polygonName body (k := .cellinfo _ _) rfl (by simp)

theorem withoutBody_cellinfo (K : Keyspace Bytes) (indexName polygonName q : Bytes) :
    withoutBody K indexName polygonName (createPolygonCellInfoSetKey indexName q) =
      K (createPolygonCellInfoSetKey indexName q) :=
  withoutBody_of_ne K indexName polygonName (k := .cellinfo _ _) rfl (by simp)

/-- The keyspace after the body and the terms of a polygon are taken away. -/
def withoutPolygon (K : Keyspace Bytes) (indexName polygonName : Bytes) (old : Finset Bytes) :
    Keyspace Bytes :=
  withoutCells (withoutBody K indexName polygonName) indexName polygonName old

/-- Without terms only the body is taken away. -/
theorem withoutPolygon_empty
    (h : asSet (K (createPolygonCellInfoSetKey indexName polygonName)) = some ∅) :
    withoutPolygon K indexName polygonName ∅ = withoutBody K indexName polygonName := by
  apply withoutCells_eq_self
  rw [withoutBody_cellinfo, h]

/-- The three writes of `SetPolygonCommand`, whether there were old terms or not. -/
theorem withPolygon_eq {body : Bytes} {old : Finset Bytes}
    (h : asSet (K (createPolygonCellInfoSetKey indexName polygonName)) = some old)
    (cells : Finset Bytes) :
    withPolygon K indexName polygonName body old cells =
      withCells (withoutCells (withBody K indexName polygonName body) indexName polygonName old)
        indexName polygonName cells := by
  rw [withPolygon]
  split
  · rename_i hold
    subst hold
    rw [withoutCells_eq_self (by rw [withBody_cellinfo, h])]
  · rfl

/-- The cell info of a polygon vanishes, the one of every other C string stays. -/
theorem withoutPolygon_cellinfo (K : Keyspace Bytes) (indexName polygonName q : Bytes)
    (old : Finset Bytes) :
    withoutPolygon K indexName polygonName old (createPolygonCellInfoSetKey indexName q) =
      if cString q = cString polygonName then none
      else K (createPolygonCellInfoSetKey indexName q) := by
  rw [withoutPolygon, withoutCells, dropFromSets, if_neg (cellinfoKey_notMem _ _ _)]
  split
  · rename_i hq
    rw [createPolygonCellInfoSetKey_eq, createPolygonCellInfoSetKey_eq, hq, Function.update_self]
  · rename_i hq
    have hne : (StoreKey.cellinfo (cString indexName) (cString q)).bytes ≠
        (StoreKey.cellinfo (cString indexName) (cString polygonName)).bytes :=
      StoreKey.bytes_ne_of_index _ _ rfl (by simpa using hq)
    rw [createPolygonCellInfoSetKey_eq, createPolygonCellInfoSetKey_eq,
      Function.update_of_ne hne, ← createPolygonCellInfoSetKey_eq, withoutBody_cellinfo]

/-- The removal of terms leaves the bodies alone, also under a name with delimiters. -/
theorem withoutCells_polygons (K : Keyspace Bytes) (indexName polygonName : Bytes)
    (old : Finset Bytes) :
    withoutCells K indexName polygonName old (createIndexPolygonsHashKey indexName) =
      K (createIndexPolygonsHashKey indexName) := by
  have hcells : createIndexPolygonsHashKey indexName ∉
      old.image (createIndexCellsSetKey indexName) := by
    rw [Finset.mem_image]
    rintro ⟨t, -, he⟩
    exact StoreKey.bytes_ne_of_index (.cells (cString indexName) (cString t))
      (.polygons (cString indexName)) rfl (by simp) he
  have hinfo : createIndexPolygonsHashKey indexName ≠
      createPolygonCellInfoSetKey indexName polygonName :=
    StoreKey.bytes_ne_of_index (.polygons (cString indexName))
      (.cellinfo (cString indexName) (cString polygonName)) rfl (by simp)
  rw [withoutCells, dropFromSets, if_neg hcells, Function.update_of_ne hinfo]

theorem asHash_withoutBody (K : Keyspace Bytes) (indexName polygonName : Bytes) :
    asHash (withoutBody K indexName polygonName (createIndexPolygonsHashKey indexName)) =
      (asHash (K (createIndexPolygonsHashKey indexName))).map
        fun fields => fields.erase polygonName := by
  rw [withoutBody, Function.update_self, asHash_dropField]

/-! ### The loop -/

/-- The rounds of `DeleteIndex` over a list of names: whether all of them were done, and
the keyspace they leave; `none` when the server dies on the way. -/
def clearNames (indexName : Bytes) : List Bytes → Keyspace Bytes → Option (Bool × Keyspace Bytes)
  | [], K => some (true, K)
  | p :: rest, K =>
      match asSet (K (createPolygonCellInfoSetKey indexName p)) with
      | none => none
      | some old =>
          if old = ∅ then some (false, withoutPolygon K indexName p old)
          else clearNames indexName rest (withoutPolygon K indexName p old)

/-- The loop over the indices of the listing runs through its names. -/
theorem deletePolygons_clearNames (ω : Orders) (indexName : Bytes) (pre rest : List Bytes)
    (K : Keyspace Bytes) :
    deletePolygons ω indexName (.array ((pre ++ rest).map some))
        (List.range' pre.length rest.length) K =
      (clearNames indexName rest K).map fun r =>
        (if r.1 then .ok () else .error .unknown, r.2) := by
  induction rest generalizing pre K with
  | nil => simp [deletePolygons, clearNames]
  | cons p rest ih =>
      have hnext := ih (pre ++ [p])
      simp only [List.append_assoc, List.singleton_append, List.length_append,
        List.length_singleton] at hnext
      have hinfo := withoutBody_cellinfo K indexName p p
      cases hold : asSet (K (createPolygonCellInfoSetKey indexName p)) with
      | none =>
          have hdel := deletePolygonCells_wrongType ω (hinfo ▸ hold)
          simp [deletePolygons, List.range'_succ, stringFromArrayElement, deletePolygonBody_eq,
            hdel, clearNames, hold, -List.map_append]
      | some old =>
          have hdel := deletePolygonCells_eq ω (hinfo ▸ hold)
          by_cases ho : old = ∅
          · subst ho
            simp [deletePolygons, List.range'_succ, stringFromArrayElement, deletePolygonBody_eq,
              hdel, clearNames, hold, withoutPolygon_empty hold, -List.map_append]
          · simp [deletePolygons, List.range'_succ, stringFromArrayElement, deletePolygonBody_eq,
              hdel, clearNames, hold, ho, hnext, withoutPolygon, -List.map_append]

/-- The keyspace after the last call of `DeleteIndex`. -/
def withoutMarker (K : Keyspace Bytes) (indexName : Bytes) : Keyspace Bytes :=
  Function.update K (createIndexMetaHashKey indexName) none

/-- `IDEL` on an index whose bodies are no hash stops before the loop. -/
theorem deleteIndexCommand_wrongType (ω : Orders) (h : IndexExists K indexName)
    (hf : asHash (K (createIndexPolygonsHashKey indexName)) = none) :
    deleteIndexCommand ω [indexName] K =
      some (replyWithError "failed to delete the index", K) := by
  simp [deleteIndexCommand, h.validateEntityName_eq, h.validateIndex_eq, deleteIndex,
    listPolygons, hkeys, hf]

/-- `IDEL` removes the marker when all rounds are done, and nothing else then. -/
theorem deleteIndexCommand_eq {fields : Polygons} (ω : Orders) (h : IndexExists K indexName)
    (hf : asHash (K (createIndexPolygonsHashKey indexName)) = some fields) :
    deleteIndexCommand ω [indexName] K =
      (clearNames indexName (ω.hkeys.list fields.keys) K).map fun r =>
        if r.1 then (replyWithLongLong 1, withoutMarker r.2 indexName)
        else (replyWithError "failed to delete the index", r.2) := by
  have hloop := deletePolygons_clearNames ω indexName [] (ω.hkeys.list fields.keys) K
  simp only [List.nil_append, List.length_nil, ← List.range_eq_range'] at hloop
  simp only [deleteIndexCommand, h.validateEntityName_eq, bind_apply, h.validateIndex_eq,
    Option.bind_some, deleteIndex, listPolygons_eq ω hf, callReplyLength, List.length_map, hloop]
  cases clearNames indexName (ω.hkeys.list fields.keys) K with
  | none => rfl
  | some r =>
      obtain ⟨done, K'⟩ := r
      cases done <;> simp [del, withoutMarker]

/-! ### Where the loop ends -/

/-- A polygon that a round of the loop takes away: its cell info is a set with terms. -/
def Clearable (K : Keyspace Bytes) (indexName polygonName : Bytes) : Prop :=
  ∃ old, asSet (K (createPolygonCellInfoSetKey indexName polygonName)) = some old ∧ old ≠ ∅

theorem cellinfoKey_congr {p q : Bytes} (h : cString q = cString p) :
    createPolygonCellInfoSetKey indexName q = createPolygonCellInfoSetKey indexName p := by
  rw [createPolygonCellInfoSetKey_eq, createPolygonCellInfoSetKey_eq, h]

/-- After a round the polygons with another C string are as before. -/
theorem clearable_withoutPolygon {p q : Bytes} {old : Finset Bytes} :
    Clearable (withoutPolygon K indexName p old) indexName q ↔
      cString q ≠ cString p ∧ Clearable K indexName q := by
  rw [Clearable, withoutPolygon_cellinfo, Clearable]
  split
  · rename_i hq
    simp [hq, eq_comm]
  · rename_i hq
    simp [hq]

/-- The loop dies at the first polygon whose cell info is no set, if it gets there: no
polygon before has lost its terms, on its own or to one with the same C string. -/
theorem clearNames_eq_none_iff {names : List Bytes} :
    clearNames indexName names K = none ↔ ∃ pre p post, names = pre ++ p :: post ∧
      (∀ q ∈ pre, Clearable K indexName q) ∧ (pre.map cString).Nodup ∧
      asSet (K (createPolygonCellInfoSetKey indexName p)) = none := by
  induction names generalizing K with
  | nil => simp [clearNames]
  | cons p rest ih =>
      cases hold : asSet (K (createPolygonCellInfoSetKey indexName p)) with
      | none =>
          have hnone : clearNames indexName (p :: rest) K = none := by simp [clearNames, hold]
          exact iff_of_true hnone ⟨[], p, rest, rfl, by simp, by simp, hold⟩
      | some old =>
          by_cases ho : old = ∅
          · -- the loop has stopped before
            have hne : clearNames indexName (p :: rest) K ≠ none := by
              simp [clearNames, hold, ho]
            refine iff_of_false hne ?_
            rintro ⟨_ | ⟨q, pre⟩, r, post, he, hpre, -, hr⟩
            · obtain ⟨rfl, -⟩ := List.cons.inj he
              rw [hold] at hr
              cases hr
            · obtain ⟨rfl, -⟩ := List.cons.inj he
              obtain ⟨s, hs, hne'⟩ := hpre p (by simp)
              rw [hold, Option.some.injEq] at hs
              exact hne' (hs ▸ ho)
          · have hstep : clearNames indexName (p :: rest) K =
                clearNames indexName rest (withoutPolygon K indexName p old) := by
              simp [clearNames, hold, ho]
            rw [hstep, ih]
            constructor
            · rintro ⟨pre, q, post, rfl, hpre, hnodup, hq⟩
              have hclear := fun r hr => clearable_withoutPolygon.mp (hpre r hr)
              refine ⟨p :: pre, q, post, rfl, ?_, ?_, ?_⟩
              · intro r hr
                rcases List.mem_cons.mp hr with rfl | hr
                · exact ⟨old, hold, ho⟩
                · exact (hclear r hr).2
              · rw [List.map_cons, List.nodup_cons]
                refine ⟨fun hmem => ?_, hnodup⟩
                obtain ⟨r, hr, he⟩ := List.mem_map.mp hmem
                exact (hclear r hr).1 he
              · rw [withoutPolygon_cellinfo] at hq
                split at hq
                · cases hq
                · exact hq
            · rintro ⟨_ | ⟨p', pre⟩, q, post, he, hpre, hnodup, hq⟩
              · obtain ⟨rfl, -⟩ := List.cons.inj he
                rw [hold] at hq
                cases hq
              · obtain ⟨rfl, rfl⟩ := List.cons.inj he
                obtain ⟨hp, hnodup'⟩ := List.nodup_cons.mp hnodup
                refine ⟨pre, q, post, rfl, fun r hr => ?_, hnodup', ?_⟩
                · have hne : cString r ≠ cString p := fun he =>
                    hp (List.mem_map.mpr ⟨r, hr, he⟩)
                  exact clearable_withoutPolygon.mpr
                    ⟨hne, hpre r (List.mem_cons_of_mem _ hr)⟩
                · have hne : cString q ≠ cString p := by
                    intro he
                    rw [cellinfoKey_congr he, hold] at hq
                    cases hq
                  rw [withoutPolygon_cellinfo, if_neg hne, hq]

/-- What every round keeps holds after the loop, however far it got. -/
theorem clearNames_invariant (Inv : Keyspace Bytes → Prop)
    (hround : ∀ K p old, Inv K →
      asSet (K (createPolygonCellInfoSetKey indexName p)) = some old →
      Inv (withoutPolygon K indexName p old))
    {names : List Bytes} {done : Bool} {K' : Keyspace Bytes}
    (h : clearNames indexName names K = some (done, K')) (hK : Inv K) : Inv K' := by
  induction names generalizing K with
  | nil =>
      obtain ⟨-, rfl⟩ : true = done ∧ K = K' := by simpa [clearNames] using h
      exact hK
  | cons p rest ih =>
      cases hold : asSet (K (createPolygonCellInfoSetKey indexName p)) with
      | none => simp [clearNames, hold] at h
      | some old =>
          have hnext := hround K p old hK hold
          by_cases ho : old = ∅
          · simp only [clearNames, hold, if_pos ho, Option.some.injEq, Prod.mk.injEq] at h
            exact h.2 ▸ hnext
          · simp only [clearNames, hold, if_neg ho] at h
            exact ih h hnext

/-- A round takes the body of its polygon away. -/
theorem asHash_withoutPolygon {fields : Polygons} (polygonName : Bytes) (old : Finset Bytes)
    (hf : asHash (K (createIndexPolygonsHashKey indexName)) = some fields) :
    asHash (withoutPolygon K indexName polygonName old (createIndexPolygonsHashKey indexName)) =
      some (fields.erase polygonName) := by
  rw [withoutPolygon, withoutCells_polygons, asHash_withoutBody, hf, Option.map_some]

/-- The loop stores no body. It takes the body of its first polygon away, also when it
stops there, and all of them when it gets to its end. -/
theorem clearNames_polygons {names : List Bytes} {fields : Polygons} {done : Bool}
    {K' : Keyspace Bytes} (h : clearNames indexName names K = some (done, K'))
    (hf : asHash (K (createIndexPolygonsHashKey indexName)) = some fields) :
    ∃ fields', asHash (K' (createIndexPolygonsHashKey indexName)) = some fields' ∧
      fields'.keys ⊆ fields.keys ∧
      ∀ p ∈ names, names.head? = some p ∨ done = true → p ∉ fields'.keys := by
  induction names generalizing K fields with
  | nil =>
      obtain ⟨-, rfl⟩ : true = done ∧ K = K' := by simpa [clearNames] using h
      exact ⟨fields, hf, Finset.Subset.refl _, by simp⟩
  | cons p rest ih =>
      cases hold : asSet (K (createPolygonCellInfoSetKey indexName p)) with
      | none => simp [clearNames, hold] at h
      | some old =>
          have hfirst := asHash_withoutPolygon p old hf
          have hsub : (fields.erase p).keys ⊆ fields.keys := fun q hq =>
            Finmap.mem_keys.mpr (Finmap.mem_erase.mp (Finmap.mem_keys.mp hq)).2
          have hp : p ∉ (fields.erase p).keys := fun hmem =>
            Finmap.notMem_erase_self (Finmap.mem_keys.mp hmem)
          by_cases ho : old = ∅
          · obtain ⟨rfl, rfl⟩ : false = done ∧ withoutPolygon K indexName p old = K' := by
              simpa [clearNames, hold, ho] using h
            refine ⟨_, hfirst, hsub, fun q _ hq => ?_⟩
            obtain rfl : p = q := by simpa using hq
            exact hp
          · simp only [clearNames, hold, if_neg ho] at h
            obtain ⟨fields', hf', hsub', hnames⟩ := ih h hfirst
            refine ⟨fields', hf', hsub'.trans hsub, fun q hq hdone => ?_⟩
            by_cases hqp : q = p
            · exact hqp ▸ fun hmem => hp (hsub' hmem)
            · have hrest : q ∈ rest := (List.mem_cons.mp hq).resolve_left hqp
              have hd : done = true := hdone.resolve_left fun he => hqp (by simpa using he.symm)
              exact hnames q hrest (Or.inr hd)

end RedisS2Geo.Store
