import RedisS2Geo.Store.Runs

/-!
# What an acknowledgement is worth

The keyspace is shared with other clients, and the writing commands discard most
replies of their calls. On every keyspace an acknowledged creation or deletion
has happened. An acknowledged `POLYSET` may not have: on a bodies key of another
type its `HSET` fails unnoticed.
-/

namespace RedisS2Geo.Guarantees
open Foundation Source Covering Store

variable {env : Environment} {ω : Orders} {K K' : Keyspace Bytes} {i p b : Bytes} {o : Outcome}

/-! ### What an acknowledgement tells about the keys before it -/

/-- A foreign marker is never acknowledged. -/
theorem reply_foreign {c : Command} (hs : Shaped c) (hname : ∀ n ∈ names c, Accepted n)
    (hi : c.args.head? = some i) (hx : IndexForeign K i)
    (he : exec env ω c K = some (o, K')) : ∃ text, o.reply = .error text := by
  obtain ⟨text, hf⟩ := exec_foreign env ω hs hname hi
  obtain ⟨rfl, -⟩ := exec_unique he (hf K hx)
  exact ⟨text, rfl⟩

theorem iset_ok (hi : Accepted i) (he : exec env ω ⟨.iset, [i]⟩ K = some (o, K'))
    (ho : o.reply = .simpleString "OK") : IndexAbsent K i ∧ K' = withMarker K i := by
  rcases index_cases K hi with hx | hx | hx
  · obtain ⟨rfl, -⟩ := exec_unique he (setIndexCommand_exists hx)
    cases ho
  · exact ⟨hx, (exec_unique he (setIndexCommand_absent hx)).2⟩
  · obtain ⟨text, hf⟩ := reply_foreign (.iset i) (by simp [names, hi]) rfl hx he
    rw [hf] at ho
    cases ho

/-- An acknowledged `POLYSET` went through its three writing calls. -/
theorem polyset_one (hi : Accepted i) (hp : Accepted p)
    (he : exec env ω ⟨.polyset, [i, p, b]⟩ K = some (o, K')) (ho : o.reply = .integer 1) :
    IndexExists K i ∧ bodyTerms env b ≠ ∅ ∧
      ∃ old, asSet (K (createPolygonCellInfoSetKey i p)) = some old ∧
        K' = withPolygon K i p b old (bodyTerms env b) := by
  rcases index_cases K hi with hx | hx | hx
  · by_cases hb : bodyTerms env b = ∅
    · obtain ⟨text, -, hr⟩ := setPolygonCommand_refused ω hp hb
      obtain ⟨rfl, -⟩ := exec_unique he (hr K hx)
      cases ho
    · obtain ⟨old, hold, hres⟩ :=
        Option.map_eq_some_iff.mp ((setPolygonCommand_stored ω hx hp hb).symm.trans he)
      exact ⟨hx, hb, old, hold, (Prod.mk.inj hres).2.symm⟩
  · obtain ⟨rfl, -⟩ := exec_unique he (setPolygonCommand_absent ω hx hp)
    cases ho
  · obtain ⟨text, hf⟩ := reply_foreign (.polyset i p b) (by simp [names, hi, hp]) rfl hx he
    rw [hf] at ho
    cases ho

/-- An acknowledged `POLYDEL` went through its two writing calls. -/
theorem polydel_one (hi : Accepted i) (hp : Accepted p)
    (he : exec env ω ⟨.polydel, [i, p]⟩ K = some (o, K')) (ho : o.reply = .integer 1) :
    IndexExists K i ∧ ∃ old, K' = withoutCells (withoutBody K i p) i p old := by
  rcases index_cases K hi with hx | hx | hx
  · obtain ⟨old, -, hres⟩ :=
      Option.map_eq_some_iff.mp ((deletePolygonCommand_exists ω hx hp).symm.trans he)
    split at hres
    · simp [← (Prod.mk.inj hres).1, replyWithLongLong] at ho
    · exact ⟨hx, old, (Prod.mk.inj hres).2.symm⟩
  · obtain ⟨rfl, -⟩ := exec_unique he (deletePolygonCommand_absent ω hx hp)
    simp [replyWithLongLong] at ho
  · obtain ⟨text, hf⟩ := reply_foreign (.polydel i p) (by simp [names, hi, hp]) rfl hx he
    rw [hf] at ho
    cases ho

/-- `DeleteIndex` succeeds only with its last call. -/
theorem deleteIndex_ok (h : deleteIndex ω i K = some (.ok (), K')) :
    ∃ K₁, K' = Function.update K₁ (createIndexMetaHashKey i) none := by
  rw [deleteIndex, bind_apply] at h
  obtain ⟨⟨ret, K₁⟩, -, h⟩ := Option.bind_eq_some_iff.mp h
  cases ret with
  | error e => cases h
  | ok polygons =>
      simp only [bind_apply] at h
      obtain ⟨⟨ret, K₂⟩, -, h⟩ := Option.bind_eq_some_iff.mp h
      cases ret with
      | error e => cases h
      | ok _ =>
          simp only [bind_apply, redisModuleCall_apply, Option.bind_some, del, pure_apply,
            Option.some.injEq, Prod.mk.injEq] at h
          exact ⟨K₂, h.2.symm⟩

theorem idel_one (hi : Accepted i) (he : exec env ω ⟨.idel, [i]⟩ K = some (o, K'))
    (ho : o.reply = .integer 1) :
    ∃ K₁, K' = Function.update K₁ (createIndexMetaHashKey i) none := by
  rcases index_cases K hi with hx | hx | hx
  · simp only [exec, deleteIndexCommand, hx.validateEntityName_eq, bind_apply,
      hx.validateIndex_eq, Option.bind_some] at he
    obtain ⟨⟨ret, K₁⟩, hdel, he⟩ := Option.bind_eq_some_iff.mp he
    cases ret with
    | error e =>
        simp only [pure_apply, Option.some.injEq, Prod.mk.injEq] at he
        simp [← he.1, replyWithError] at ho
    | ok _ =>
        simp only [pure_apply, Option.some.injEq, Prod.mk.injEq] at he
        rw [← he.2]
        exact deleteIndex_ok hdel
  · obtain ⟨rfl, -⟩ := exec_unique he (deleteIndexCommand_absent ω hx)
    simp [replyWithLongLong] at ho
  · obtain ⟨text, hf⟩ := reply_foreign (.idel i) (by simp [names, hi]) rfl hx he
    rw [hf] at ho
    cases ho

/-! ### Acknowledged writes -/

/-- Each acknowledged write on an index and a polygon has happened. -/
structure Acknowledged (env : Environment) (K : Keyspace Bytes) (i p b : Bytes) : Prop where
  iset : ∀ ω o K', exec env ω ⟨.iset, [i]⟩ K = some (o, K') → o.reply = .simpleString "OK" →
    ∀ ω', exec env ω' ⟨.iget, [i]⟩ K' = some (replyWithSimpleString "OK", K')
  polyset : ∀ ω o K', exec env ω ⟨.polyset, [i, p, b]⟩ K = some (o, K') → o.reply = .integer 1 →
    ∀ ω', exec env ω' ⟨.polyget, [i, p]⟩ K' = some (replyWithString b, K') ∧
      ∃ items, exec env ω' ⟨.polylist, [i]⟩ K' = some (replyWithArray items, K') ∧ some p ∈ items
  polydel : ∀ ω o K', exec env ω ⟨.polydel, [i, p]⟩ K = some (o, K') → o.reply = .integer 1 →
    ∀ ω', exec env ω' ⟨.polyget, [i, p]⟩ K' = some (replyWithNull, K')
  idel : ∀ ω o K', exec env ω ⟨.idel, [i]⟩ K = some (o, K') → o.reply = .integer 1 →
    ∀ ω', exec env ω' ⟨.iget, [i]⟩ K' = some (replyWithNull, K')

theorem acknowledged_polydel (hi : Accepted i) (hp : Accepted p)
    (he : exec env ω ⟨.polydel, [i, p]⟩ K = some (o, K')) (ho : o.reply = .integer 1)
    (ω' : Orders) : exec env ω' ⟨.polyget, [i, p]⟩ K' = some (replyWithNull, K') := by
  obtain ⟨hx, old, rfl⟩ := polydel_one hi hp he ho
  set K' := withoutCells (withoutBody K i p) i p old with hK'
  have hinfo : K' (createIndexMetaHashKey i) = K (createIndexMetaHashKey i) := by
    rw [hK', createIndexMetaHashKey_eq, withoutCells_of_ne hi.notMem _ (Or.inl rfl),
      withoutBody_of_ne K i p rfl (by simp)]
  have hx' : IndexExists K' i := ⟨hi, hinfo ▸ hx.marker⟩
  have hbody : bodyAt K' i p = none := by
    rw [bodyAt, hK', createIndexPolygonsHashKey_eq, withoutCells_of_ne hi.notMem _ (Or.inr rfl),
      withoutBody, createIndexPolygonsHashKey_eq, Function.update_self, asHash_dropField]
    cases asHash (K (StoreKey.polygons (cString i)).bytes) with
    | none => rfl
    | some fields => exact Finmap.lookup_erase p fields
  have hget := getPolygonCommand_exists hx' hp
  rwa [hbody] at hget

theorem acknowledged_idel (hi : Accepted i) (he : exec env ω ⟨.idel, [i]⟩ K = some (o, K'))
    (ho : o.reply = .integer 1) (ω' : Orders) :
    exec env ω' ⟨.iget, [i]⟩ K' = some (replyWithNull, K') := by
  obtain ⟨K₁, rfl⟩ := idel_one hi he ho
  apply getIndexCommand_absent
  constructor
  · exact hi
  · rw [Function.update_self]
    rfl

/-- The body after an acknowledged `POLYSET`: the written one, unless the bodies are of
another type. -/
theorem bodyAt_stored (hi : entityDelim ∉ cString i) (old new : Finset Bytes) :
    bodyAt (withPolygon K i p b old new) i p =
      (asHash (K (createIndexPolygonsHashKey i))).map fun _ => b := by
  rw [bodyAt, createIndexPolygonsHashKey_eq, withPolygon_of_ne hi old new (Or.inr rfl), withBody,
    createIndexPolygonsHashKey_eq, Function.update_self, asHash_putField]
  cases asHash (K (StoreKey.polygons (cString i)).bytes) with
  | none => rfl
  | some fields => exact Finmap.lookup_insert fields

theorem indexExists_stored (hx : IndexExists K i) (old new : Finset Bytes) :
    IndexExists (withPolygon K i p b old new) i where
  accepted := hx.accepted
  marker := by
    rw [createIndexMetaHashKey_eq, withPolygon_of_ne hx.accepted.notMem old new (Or.inl rfl),
      withBody_of_ne K i p b rfl (by simp)]
    exact hx.marker

theorem acknowledged_iset (hi : Accepted i) (he : exec env ω ⟨.iset, [i]⟩ K = some (o, K'))
    (ho : o.reply = .simpleString "OK") (ω' : Orders) :
    exec env ω' ⟨.iget, [i]⟩ K' = some (replyWithSimpleString "OK", K') := by
  obtain ⟨hx, rfl⟩ := iset_ok hi he ho
  exact getIndexCommand_exists hx.withMarker

/-- The written body is read back and its name is listed, when the bodies are absent or a
hash. -/
theorem acknowledged_polyset (hi : Accepted i) (hp : Accepted p)
    (hhash : asHash (K (createIndexPolygonsHashKey i)) ≠ none)
    (he : exec env ω ⟨.polyset, [i, p, b]⟩ K = some (o, K')) (ho : o.reply = .integer 1)
    (ω' : Orders) :
    exec env ω' ⟨.polyget, [i, p]⟩ K' = some (replyWithString b, K') ∧
      ∃ items, exec env ω' ⟨.polylist, [i]⟩ K' = some (replyWithArray items, K') ∧
        some p ∈ items := by
  obtain ⟨hx, -, old, -, rfl⟩ := polyset_one hi hp he ho
  obtain ⟨fields, hfields⟩ := Option.ne_none_iff_exists'.mp hhash
  have hx' := indexExists_stored (p := p) (b := b) hx old (bodyTerms env b)
  have hbody := bodyAt_stored (K := K) (p := p) (b := b) hi.notMem old (bodyTerms env b)
  rw [hfields, Option.map_some] at hbody
  have hget := getPolygonCommand_exists hx' hp
  rw [hbody] at hget
  obtain ⟨fields', hfields', hlookup⟩ := Option.bind_eq_some_iff.mp hbody
  have hlisted : p ∈ ω'.hkeys.list fields'.keys := by
    rw [Enumeration.mem_list, Finmap.mem_keys]
    exact Finmap.mem_iff.mpr ⟨b, hlookup⟩
  exact ⟨hget, _, listPolygonsCommand_exists ω' hx' hfields', List.mem_map_of_mem hlisted⟩

/-- On every keyspace the acknowledged writes have happened exactly when the bodies of the
index are absent or a hash, or `POLYSET` is not acknowledged at all. -/
theorem acknowledged_iff (env : Environment) (K : Keyspace Bytes) (b : Bytes) (hi : PlainName i)
    (hp : PlainName p) :
    Acknowledged env K i p b ↔
      (IndexExists K i → bodyTerms env b ≠ ∅ →
        asSet (K (createPolygonCellInfoSetKey i p)) ≠ none →
        asHash (K (createIndexPolygonsHashKey i)) ≠ none) := by
  constructor
  · intro hack hx hb hold hnone
    obtain ⟨old, hold⟩ := Option.ne_none_iff_exists'.mp hold
    have he := setPolygonCommand_stored ascending hx hp.1 hb
    rw [hold, Option.map_some] at he
    obtain ⟨hget, -⟩ := hack.polyset ascending _ _ he rfl ascending
    -- the write of the body failed, and the bodies hold no hash to read it from
    have hget' := getPolygonCommand_exists
      (indexExists_stored (p := p) (b := b) hx old (bodyTerms env b)) hp.1
    rw [bodyAt_stored hi.1.notMem, hnone] at hget'
    have := hget'.symm.trans hget
    simp [replyWithNull, replyWithString] at this
  · intro hcond
    constructor
    · exact fun ω o K' => acknowledged_iset hi.1
    · intro ω o K' he ho
      obtain ⟨hx, hb, old, hold, -⟩ := polyset_one hi.1 hp.1 he ho
      have hhash := hcond hx hb (by simp [hold])
      exact acknowledged_polyset hi.1 hp.1 hhash he ho
    · exact fun ω o K' => acknowledged_polydel hi.1 hp.1
    · exact fun ω o K' => acknowledged_idel hi.1

theorem acknowledged_iff_sample :
    Acknowledged sampleEnvironment (withMarker emptyKeyspace (ascii "i")) (ascii "i")
      (ascii "p") holeBody := by
  apply (acknowledged_iff sampleEnvironment _ holeBody plainName_i plainName_p).mpr
  intro _ _ _
  have hkey : withMarker emptyKeyspace (ascii "i") (createIndexPolygonsHashKey (ascii "i")) =
      none := rfl
  simp [hkey]

/-- A keyspace with the index `i`, whose bodies another client keeps as a string. -/
def foreignBodies : Keyspace Bytes :=
  Function.update (withMarker emptyKeyspace (ascii "i")) (ascii "i:polygons")
    (some (.other (ascii "string") (ascii "x")))

/-- The write of a body is acknowledged there, but no body is found afterwards. -/
theorem polyset_acknowledged_but_lost :
    PlainName (ascii "i") ∧ PlainName (ascii "p") ∧
      ∃ K', exec sampleEnvironment ascending ⟨.polyset, [ascii "i", ascii "p", holeBody]⟩
          foreignBodies = some (replyWithLongLong 1, K') ∧
        exec sampleEnvironment ascending ⟨.polyget, [ascii "i", ascii "p"]⟩ K' =
          some (replyWithNull, K') := by
  have hx : IndexExists foreignBodies (ascii "i") := ⟨plainName_i.1, rfl⟩
  have hold : asSet (foreignBodies (createPolygonCellInfoSetKey (ascii "i") (ascii "p"))) =
      some ∅ := rfl
  have hnone : asHash (foreignBodies (createIndexPolygonsHashKey (ascii "i"))) = none := rfl
  have hterms : bodyTerms sampleEnvironment holeBody ≠ ∅ :=
    bodyTerms_eq_empty_iff.not.mpr covered_holeBody
  have hset := setPolygonCommand_stored ascending hx plainName_p.1 hterms
  rw [hold, Option.map_some] at hset
  refine ⟨plainName_i, plainName_p, _, hset, ?_⟩
  have hget := getPolygonCommand_exists (indexExists_stored (p := ascii "p") (b := holeBody) hx ∅
    (bodyTerms sampleEnvironment holeBody)) plainName_p.1
  rwa [bodyAt_stored plainName_i.1.notMem, hnone] at hget

end RedisS2Geo.Guarantees
