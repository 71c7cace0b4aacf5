import RedisS2Geo.Guarantees.AnyNames

/-!
# Deleting an index makes progress

`IDEL` stops with an error at a polygon without terms, which a shared cell info or a lost
key leaves behind. The body of that polygon is gone by then, so that each attempt takes
at least one polygon away and the index goes after a bounded number of them.
-/

namespace RedisS2Geo.Guarantees
open Foundation Source Covering Store

variable {env : Environment} {K K' : Keyspace Bytes} {i : Bytes} {fields : Polygons}

/-- What one `IDEL` does to an existing index: it deletes the index with all its bodies, or
it fails, and fewer polygons are listed afterwards. -/
theorem idel_progress {S : Acknowledgements} (hK : Traced env S K) (hx : IndexExists K i)
    (hf : asHash (K (createIndexPolygonsHashKey i)) = some fields) (ω : Orders) :
    ∃ K', Traced env S K' ∧
      ((exec env ω ⟨.idel, [i]⟩ K = some (replyWithLongLong 1, K') ∧ IndexAbsent K' i ∧
          ∀ p, bodyAt K' i p = none) ∨
        (exec env ω ⟨.idel, [i]⟩ K =
            some (replyWithError "failed to delete the index", K') ∧ IndexExists K' i ∧
          ∃ fields', asHash (K' (createIndexPolygonsHashKey i)) = some fields' ∧
            fields'.keys.card < fields.keys.card)) := by
  have hn := hx.accepted.notMem
  have he : exec env ω ⟨.idel, [i]⟩ K = _ := deleteIndexCommand_eq ω hx hf
  cases hloop : clearNames i (ω.hkeys.list fields.keys) K with
  | none =>
      have hfatal : Fatal env ω K ⟨.idel, [i]⟩ := .cleared hx hf hloop
      exact absurd hfatal hK.not_fatal
  | some r =>
      obtain ⟨done, K'⟩ := r
      rw [hloop, Option.map_some] at he
      obtain ⟨fields', hf', hsub, hnames⟩ := clearNames_polygons hloop hf
      have hK' := hK.clearNames hn hloop
      cases done with
      | true =>
          refine ⟨withoutMarker K' i, hK'.withoutMarker hn, Or.inl ⟨he, ?_, fun p => ?_⟩⟩
          · refine ⟨hx.accepted, ?_⟩
            rw [withoutMarker, Function.update_self]
            rfl
          · have hne : createIndexPolygonsHashKey i ≠ createIndexMetaHashKey i :=
              StoreKey.bytes_ne_of_index (.polygons (cString i)) (.info (cString i)) rfl (by simp)
            rw [bodyAt, withoutMarker, Function.update_of_ne hne, hf', Option.bind_some,
              Finmap.lookup_eq_none]
            intro hp
            have hmem := Finmap.mem_keys.mpr hp
            exact hnames p ((ω.hkeys.mem_list _ _).mpr (hsub hmem)) (Or.inr rfl) hmem
      | false =>
          refine ⟨K', hK', Or.inr ⟨he, ⟨hx.accepted, ?_⟩, fields', hf', ?_⟩⟩
          · rw [clearNames_marker hn hloop]
            exact hx.marker
          · -- the loop does not stop before its first polygon
            obtain ⟨p, hp⟩ : ∃ p, (ω.hkeys.list fields.keys).head? = some p := by
              cases hlist : ω.hkeys.list fields.keys with
              | nil => simp [hlist, clearNames] at hloop
              | cons p rest => exact ⟨p, rfl⟩
            have hmem : p ∈ ω.hkeys.list fields.keys := List.mem_of_head? hp
            apply Finset.card_lt_card
            rw [Finset.ssubset_iff_of_subset hsub]
            exact ⟨p, (ω.hkeys.mem_list _ _).mp hmem, hnames p hmem (Or.inl hp)⟩

/-- `IDEL` in a row: what it replies while the index resists, and then. -/
theorem idel_run {S : Acknowledgements} (hK : Traced env S K) (hx : IndexExists K i)
    (hf : asHash (K (createIndexPolygonsHashKey i)) = some fields) {orders : List Orders}
    (hlen : fields.keys.card < orders.length) :
    ∃ n K', n ≤ fields.keys.card ∧
      run (step env) (orders.map fun ω => (ω, ⟨.idel, [i]⟩)) K =
        some (List.replicate n (replyWithError "failed to delete the index") ++
          replyWithLongLong 1 ::
            List.replicate (orders.length - n - 1) (replyWithLongLong 0), K') ∧
      IndexAbsent K' i ∧ ∀ p, bodyAt K' i p = none := by
  induction orders generalizing K fields with
  | nil => simp at hlen
  | cons ω orders ih =>
      obtain ⟨K₁, hK₁, ⟨he, habsent, hbody⟩ | ⟨he, hx₁, fields', hf', hcard⟩⟩ :=
        idel_progress hK hx hf ω
      · have hrest : ∀ orders : List Orders,
            run (step env) (orders.map fun ω => (ω, ⟨.idel, [i]⟩)) K₁ =
              some (List.replicate orders.length (replyWithLongLong 0), K₁) := by
          intro orders
          induction orders with
          | nil => rfl
          | cons ω orders ih =>
              exact run_cons_eq_some.mpr
                ⟨_, _, _, deleteIndexCommand_absent ω habsent, ih, rfl⟩
        refine ⟨0, K₁, Nat.zero_le _, ?_, habsent, hbody⟩
        exact run_cons_eq_some.mpr ⟨_, _, _, he, hrest orders, by simp⟩
      · have hlen' : fields'.keys.card < orders.length := by
          rw [List.length_cons] at hlen
          omega
        obtain ⟨n, K', hn, hrun, habsent, hbody⟩ := ih hK₁ hx₁ hf' hlen'
        refine ⟨n + 1, K', by omega, ?_, habsent, hbody⟩
        refine run_cons_eq_some.mpr ⟨_, _, _, he, hrun, ?_⟩
        rw [List.replicate_succ, List.cons_append, List.length_cons, Nat.add_sub_add_right]

/-- After every history, whatever was lost and however the names share their keys, an
existing index with `n` polygons is gone after at most `n + 1` calls of `IDEL`: each call
before that fails, the next one replies one, and all further ones reply zero. -/
theorem idel_succeeds_within {events : List Event} {replies : List (Option Outcome)}
    (hevents : ∀ e ∈ events, Harmless e)
    (h : run (eventStep env) events emptyKeyspace = some (replies, K)) (hx : IndexExists K i)
    (hf : asHash (K (createIndexPolygonsHashKey i)) = some fields) {orders : List Orders}
    (hlen : fields.keys.card < orders.length) :
    ∃ n K', n ≤ fields.keys.card ∧
      run (step env) (orders.map fun ω => (ω, ⟨.idel, [i]⟩)) K =
        some (List.replicate n (replyWithError "failed to delete the index") ++
          replyWithLongLong 1 ::
            List.replicate (orders.length - n - 1) (replyWithLongLong 0), K') ∧
      IndexAbsent K' i ∧ ∀ p, bodyAt K' i p = none :=
  idel_run (traced_of_run hevents h) hx hf hlen

/-- Without the cell info of its polygon the index is gone in the end. -/
theorem idel_succeeds_within_lost :
    ∃ replies K orders n K', run (eventStep sampleEnvironment) lostInfo emptyKeyspace =
        some (replies, K) ∧
      run (step sampleEnvironment) ((orders : List Orders).map fun ω => (ω, ⟨.idel, [ascii "i"]⟩))
          K =
        some (List.replicate n (replyWithError "failed to delete the index") ++
          replyWithLongLong 1 ::
            List.replicate (orders.length - n - 1) (replyWithLongLong 0), K') ∧
      IndexAbsent K' (ascii "i") := by
  obtain ⟨K, -, hx, -, hevents⟩ := exists_lostInfo
  have hx' := (sameFor_lostInfo K).indexExists hx
  obtain ⟨fields, hf, -⟩ :=
    (traced_of_run harmless_lostInfo hevents).exists_fields hx'.accepted.notMem
  have hlen : fields.keys.card < (List.replicate (fields.keys.card + 1) ascending).length := by
    simp
  obtain ⟨n, K', -, hrun, habsent, -⟩ :=
    idel_succeeds_within harmless_lostInfo hevents hx' hf hlen
  exact ⟨_, _, _, n, K', hevents, hrun, habsent⟩

end RedisS2Geo.Guarantees
