import RedisS2Geo.Guarantees.Isolation
import RedisS2Geo.Guarantees.Searches
import RedisS2Geo.Store.Provenance

/-!
# Any names, and keys that get lost

Nothing is assumed of the arguments here: names may be empty, have delimiters or zero
bytes, and share their keys. Keys may be evicted or deleted at any time, marker and cell
info included. The server goes on, and its searches invent nothing; as long as no key is
lost, they miss nothing either.
-/

namespace RedisS2Geo.Guarantees
open Foundation Source Covering Store

variable {env : Environment} {ω : Orders} {K K' : Keyspace Bytes} {i j p q b : Bytes}

/-- An event that puts no value to a key of the module: a command with any arguments, the
loss of a key, or a write to any other key. -/
def Harmless : Event → Prop
  | .command _ _ => True
  | .foreign key v => v = none ∨ ∀ k : StoreKey, k.WellFormed → key ≠ k.bytes

/-! ### The server goes on -/

/-- In every history of commands with any arguments, losses of any keys and writes to keys
of other clients, each command answers, and none of the replies blames the keyspace: the
error texts for foreign and unreadable values never occur. -/
theorem history_answered (env : Environment) {events : List Event}
    (h : ∀ e ∈ events, Harmless e) :
    ∃ replies K, run (eventStep env) events emptyKeyspace = some (replies, K) ∧
      ∀ o, some o ∈ replies → Blameless o := by
  have hstep : ∀ e K, Harmless e → Traced env (fun _ _ _ => True) K →
      ∃ r K', eventStep env e K = some (r, K') ∧ (∀ o, r = some o → Blameless o) ∧
        Traced env (fun _ _ _ => True) K' := by
    intro e K he hK
    cases e with
    | command ω c =>
        obtain ⟨o, K', hexec, ho⟩ := hK.exec_answers ω c
        refine ⟨some o, K', eventStep_command.mpr ⟨o, hexec, rfl⟩, ?_, ?_⟩
        · intro o' h'
          obtain rfl := Option.some.inj h'
          exact ho
        · exact (exec_effect hexec).traced hK fun _ _ _ _ _ => trivial
    | foreign key v => exact ⟨none, _, rfl, by simp, hK.foreign he⟩
  obtain ⟨replies, K, hrun, hreplies, -⟩ := run_total (Traced env fun _ _ _ => True)
    (fun r => ∀ o, r = some o → Blameless o) hstep h Traced.empty
  exact ⟨replies, K, hrun, fun o ho => hreplies _ ho o rfl⟩

/-- An index is created and its marker is lost; the next two commands still answer. -/
def lossyEvents : List Event :=
  [.command ascending ⟨.iset, [ascii "i"]⟩, .foreign (ascii "i:meta") none,
    .command ascending ⟨.iget, [ascii "i"]⟩, .command ascending ⟨.idel, [[]]⟩]

theorem history_answered_lossy :
    ∃ replies K, run (eventStep sampleEnvironment) lossyEvents emptyKeyspace =
        some (replies, K) ∧ ∀ o, some o ∈ replies → Blameless o := by
  apply history_answered
  simp [lossyEvents, Harmless]

/-! ### Searches -/

/-- The body meets the query of a search, as `Meets` does for coverings and containment
below the faces does for points. -/
def Matches (env : Environment) (b : Bytes) (c : Command) : Prop :=
  match c with
  | ⟨.polysearch, [_, q]⟩ => ∃ x ∈ bodyCovering env b, ∃ y ∈ bodyCovering env q, Meets x y
  | ⟨.pointsearch, [_, q]⟩ => ∃ point, parseLatLng env q = some point ∧
      ∃ x ∈ bodyCovering env b, x.Contains (leafOf env point) ∧ 1 ≤ x.level
  | _ => False

/-- A search on a traced keyspace is refused for its query, or it returns the members of
the cells of its terms; a body has one of these terms when it meets the query. -/
theorem traced_search {S : Acknowledgements} (h : Traced env S K) (hx : IndexExists K j)
    {c : Command} (hc : OnSearch j c) (ω : Orders) :
    ((∃ text, exec env ω c K = some (replyWithError text, K)) ∧ ∀ b, ¬ Matches env b c) ∨
    ∃ terms s : Finset Bytes,
      exec env ω c K = some (replyWithArray ((ω.sunion.list s).map some), K) ∧
      (∀ p, p ∈ s ↔ ∃ t ∈ terms, ∃ members,
        asSet (K (createIndexCellsSetKeyCStr j t)) = some members ∧ p ∈ members) ∧
      (∀ t ∈ terms, NulFree t) ∧
      ∀ b, (∃ t ∈ bodyTerms env b, t ∈ terms) ↔ Matches env b c := by
  cases hc with
  | polysearch q =>
      by_cases hq : bodyCovering env q = []
      · refine Or.inl ⟨?_, fun b => by simp [Matches, hq]⟩
        cases hparse : parsePolygon env q with
        | none => exact ⟨_, searchPolygonCommand_unparsed ω hx hparse⟩
        | some polygon =>
            rw [bodyCovering, hparse] at hq
            exact ⟨_, searchPolygonCommand_uncovered ω hx hparse
              (indexPolygonForOverlapTest_eq_empty_iff.mpr hq)⟩
      · obtain ⟨polygon, hparse⟩ := exists_parsed hq
        rw [bodyCovering, hparse] at hq
        obtain ⟨s, hs, hmem⟩ := h.exists_unionAt hx.accepted.notMem ω
          (indexPolygonForOverlapTest env (some polygon))
        refine Or.inr ⟨_, s, searchPolygonCommand_found ω hx hparse
          (indexPolygonForOverlapTest_eq_empty_iff.not.mpr hq) hs, hmem,
          fun t ht => nulFree_of_mem_indexPolygonForOverlapTest ht, fun b => ?_⟩
        simp only [bodyTerms, indexPolygon_meets_iff, Matches, bodyCovering, hparse]
  | pointsearch q =>
      cases hparse : parseLatLng env q with
      | none =>
          exact Or.inl ⟨⟨_, searchPointCommand_unparsed ω hx hparse⟩, by simp [Matches, hparse]⟩
      | some point =>
          obtain ⟨s, hs, hmem⟩ := h.exists_unionAt hx.accepted.notMem ω
            (indexPoint env (some point))
          refine Or.inr ⟨_, s, searchPointCommand_found ω hx hparse hs, hmem,
            fun t ht => nulFree_of_mem_indexPoint ht, fun b => ?_⟩
          simp [bodyTerms, indexPolygon_meets_point_iff, Matches, bodyCovering, hparse, leafOf]

/-! ### Nothing is invented -/

/-- The body was stored under the polygon name in an index with this C string, and the
command was acknowledged. -/
def AcknowledgedIn (events : List Event) (replies : List (Option Outcome)) : Acknowledgements :=
  fun n p b => ∃ ω i, cString i = n ∧
    (Event.command ω ⟨.polyset, [i, p, b]⟩, some (replyWithLongLong 1)) ∈ events.zip replies

/-- After every history the members of the cells come from acknowledged commands. -/
theorem traced_of_run {events : List Event} {replies : List (Option Outcome)}
    (hevents : ∀ e ∈ events, Harmless e)
    (h : run (eventStep env) events emptyKeyspace = some (replies, K)) :
    Traced env (AcknowledgedIn events replies) K := by
  apply run_invariant (Traced env (AcknowledgedIn events replies)) ?_ h Traced.empty
  intro e r K₁ K₂ hmem hK he
  cases e with
  | command ω c =>
      obtain ⟨o, hexec, rfl⟩ := eventStep_command.mp he
      apply (exec_effect hexec).traced hK
      rintro i p b rfl rfl
      exact ⟨ω, i, rfl, hmem⟩
  | foreign key v =>
      obtain ⟨-, rfl⟩ := Prod.mk.inj (Option.some.inj he)
      exact hK.foreign (hevents _ (List.of_mem_zip hmem).1)

/-- After every history every name that a search returns was stored in its index, by a
command that was acknowledged, and with a body that meets the query. -/
theorem search_provenance {events : List Event} {replies : List (Option Outcome)}
    (hevents : ∀ e ∈ events, Harmless e)
    (h : run (eventStep env) events emptyKeyspace = some (replies, K)) {c : Command}
    (hc : OnSearch j c) {o : Outcome} (he : exec env ω c K = some (o, K')) (hp : Lists o p) :
    ∃ b, AcknowledgedIn events replies (cString j) p b ∧ Matches env b c := by
  have hK := traced_of_run hevents h
  have hx : IndexExists K j := by
    by_contra hx
    by_cases hj : Accepted j
    · exact not_finds_of_not_exists hc hj hx ⟨o, K', he, hp⟩
    · have hs : Shaped c := by cases hc <;> constructor
      have hi : c.args.head? = some j := by cases hc <;> rfl
      exact not_lists_of_error he (exec_indexName_refused ω hs hi hj) hp
  rcases traced_search hK hx hc ω with ⟨⟨text, ht⟩, -⟩ | ⟨terms, s, hs, hmem, hnul, hmatch⟩
  · exact absurd hp (not_lists_of_error he ht)
  · obtain ⟨rfl, -⟩ := exec_unique he hs
    rw [lists_map_some, Enumeration.mem_list, hmem] at hp
    obtain ⟨t, ht, members, hmembers, hp⟩ := hp
    obtain ⟨members', hmembers', htraced⟩ :=
      hK (.cells (cString j) (cString t)) hx.accepted.notMem
    rw [createIndexCellsSetKeyCStr_eq, hmembers', Option.some.injEq] at hmembers
    obtain ⟨b, hb, htb⟩ := htraced p (hmembers ▸ hp)
    rw [cString_eq_self (hnul t ht)] at htb
    exact ⟨b, hb, (hmatch b).mp ⟨t, htb, ht⟩⟩

/-- A polygon is stored and its cell info is lost. -/
def lostInfo : List Event :=
  [.command ascending ⟨.iset, [ascii "i"]⟩,
    .command ascending ⟨.polyset, [ascii "i", ascii "p", triangleBody]⟩,
    .foreign (ascii "i:cellinfo:p") none]

theorem harmless_lostInfo : ∀ e ∈ lostInfo, Harmless e := by simp [lostInfo, Harmless]

/-- The cell info of a polygon does not show. -/
theorem sameFor_lostInfo (K : Keyspace Bytes) :
    SameFor (ascii "i") (ascii "p") K (Function.update K (ascii "i:cellinfo:p") none) where
  marker := Function.update_of_ne (by decide) _ _
  body := by
    have hne : createIndexPolygonsHashKey (ascii "i") ≠ ascii "i:cellinfo:p" := by decide
    rw [bodyAt, bodyAt, Function.update_of_ne hne]
  member t := by
    have hne : createIndexCellsSetKeyCStr (ascii "i") t ≠ ascii "i:cellinfo:p" :=
      StoreKey.bytes_ne_of_index (.cells (ascii "i") (cString t))
        (.cellinfo (ascii "i") (ascii "p")) rfl (by simp)
    rw [Function.update_of_ne hne]

theorem exists_lostInfo :
    ∃ K, ReachableStore sampleEnvironment K ∧ IndexExists K (ascii "i") ∧
      bodyAt K (ascii "i") (ascii "p") = some triangleBody ∧
      run (eventStep sampleEnvironment) lostInfo emptyKeyspace =
        some ([some (replyWithSimpleString "OK"), some (replyWithLongLong 1), none],
          Function.update K (ascii "i:cellinfo:p") none) := by
  obtain ⟨K, hrun, hK, hx, hb⟩ := exists_sampleRun covered_triangleBody
  obtain ⟨o₁, K₁, os, hset, hrest, ho⟩ := run_cons_eq_some.mp hrun
  obtain ⟨o₂, K₂, os', hput, hend, ho'⟩ := run_cons_eq_some.mp hrest
  obtain ⟨rfl, rfl⟩ := List.cons.inj ho
  obtain ⟨rfl, rfl⟩ := List.cons.inj ho'
  obtain rfl : K₂ = K := by simpa using hend
  refine ⟨K₂, hK, hx, hb, run_cons_eq_some.mpr ⟨_, _, _, eventStep_command.mpr ⟨_, hset, rfl⟩,
    run_cons_eq_some.mpr ⟨_, _, _, eventStep_command.mpr ⟨_, hput, rfl⟩, ?_, rfl⟩, rfl⟩⟩
  exact run_cons_eq_some.mpr ⟨_, _, _, rfl, rfl, rfl⟩

theorem search_provenance_lost :
    ∃ replies K o, run (eventStep sampleEnvironment) lostInfo emptyKeyspace =
        some (replies, K) ∧
      exec sampleEnvironment ascending ⟨.polysearch, [ascii "i", triangleBody]⟩ K =
        some (o, K) ∧ Lists o (ascii "p") ∧
      ∃ b, AcknowledgedIn lostInfo replies (ascii "i") (ascii "p") b ∧
        Matches sampleEnvironment b ⟨.polysearch, [ascii "i", triangleBody]⟩ := by
  obtain ⟨K, hK, hx, hb, hevents⟩ := exists_lostInfo
  have hfound : Finds sampleEnvironment ascending ⟨.polysearch, [ascii "i", triangleBody]⟩ K
      (ascii "p") := by
    obtain ⟨A, h⟩ := hK.represents
    obtain ⟨names, hs, -, hmem⟩ :=
      polygonSearch_reply h hx ascending parsePolygon_triangleBody covered_triangleBody
    refine ⟨_, _, hs, lists_map_some.mpr ((hmem _).mpr ⟨_, hb, ?_⟩)⟩
    rw [bodyCovering_triangleBody]
    exact ⟨_, List.mem_singleton_self _, _, List.mem_singleton_self _, Meets.refl _⟩
  obtain ⟨o, K', he, hp⟩ :=
    ((sameFor_lostInfo K).finds hx.accepted (.polysearch triangleBody) ascending).mpr hfound
  obtain ⟨o', ho'⟩ := observes_exec sampleEnvironment ascending
    (c := ⟨.polysearch, [ascii "i", triangleBody]⟩) (by decide)
    (Function.update K (ascii "i:cellinfo:p") none)
  obtain ⟨rfl, rfl⟩ := exec_unique he ho'
  exact ⟨_, _, o, hevents, he, hp,
    search_provenance harmless_lostInfo hevents (.polysearch triangleBody) he hp⟩

/-! ### Nothing is missed -/

/-- The polygon is a member of the cells of all terms of its body. -/
def Indexed (env : Environment) (K : Keyspace Bytes) (j q : Bytes) : Prop :=
  ∀ b, bodyAt K j q = some b → ∀ t ∈ bodyTerms env b, ∃ members,
    asSet (K (createIndexCellsSetKeyCStr j t)) = some members ∧ q ∈ members

/-- What shows of a polygon decides whether it is indexed. -/
theorem SameFor.indexed (h : SameFor j q K K') (hK : Indexed env K j q) : Indexed env K' j q := by
  intro b hb t ht
  obtain ⟨members, hs, hq⟩ := hK b (h.body.symm.trans hb) t ht
  have hm := h.member t
  rw [hs, Option.map_some, decide_eq_true hq] at hm
  obtain ⟨members', hs', hq'⟩ := Option.map_eq_some_iff.mp hm
  exact ⟨members', hs', of_decide_eq_true hq'⟩

/-- Nothing shows of changes in another index. -/
theorem SameFor.of_changes (h : Changes (cString i) K K') (hi : Accepted i) (hj : Accepted j)
    (hij : cString i ≠ cString j) : SameFor j q K K' := by
  apply SameFor.of_eqOn
  intro key hkey
  by_contra hne
  obtain ⟨k, hk, rfl, -⟩ := h key hne
  have hdisjoint := disjoint_region hi.notMem hj.notMem hij
  exact Set.disjoint_left.mp hdisjoint (hk ▸ bytes_mem_region k) hkey

/-- A write to the marker of an index shows neither in the bodies nor in the cells. -/
theorem indexed_update_marker (hi : Accepted i) (hj : Accepted j) (hK : Indexed env K j q)
    (v : Option (Value Bytes)) :
    Indexed env (Function.update K (createIndexMetaHashKey i) v) j q := by
  have hother : ∀ k : StoreKey, k.WellFormed → k ≠ .info (cString i) →
      Function.update K (createIndexMetaHashKey i) v k.bytes = K k.bytes := by
    intro k hk hne
    have hinfo : (StoreKey.info (cString i)).WellFormed := hi.notMem
    exact (update_bytes_of_wellFormed hk hinfo v).trans (if_neg hne)
  have hpolygons : Function.update K (createIndexMetaHashKey i) v
      (createIndexPolygonsHashKey j) = K (createIndexPolygonsHashKey j) :=
    hother (.polygons (cString j)) hj.notMem (by simp)
  have hcells : ∀ t, Function.update K (createIndexMetaHashKey i) v
      (createIndexCellsSetKeyCStr j t) = K (createIndexCellsSetKeyCStr j t) := fun t =>
    hother (.cells (cString j) (cString t)) hj.notMem (by simp)
  intro b hb t ht
  rw [bodyAt, hpolygons] at hb
  rw [hcells]
  exact hK b hb t ht

/-- A polygon that was just stored is indexed, whatever shares its cell info. -/
theorem indexed_withPolygon (hK : Traced env (fun _ _ _ => True) K) (hi : Accepted i)
    (hij : cString i = cString j) {old : Finset Bytes} :
    Indexed env (withPolygon K i p b old (bodyTerms env b)) j p := by
  intro b' hb' t ht
  have hbody : bodyAt (withPolygon K i p b old (bodyTerms env b)) j p = some b := by
    obtain ⟨fields, hf, -⟩ := hK.exists_fields hi.notMem
    rw [bodyAt, createIndexPolygonsHashKey_eq, ← hij,
      withPolygon_of_ne hi.notMem _ _ (Or.inr rfl), ← createIndexPolygonsHashKey_eq, withBody,
      Function.update_self, asHash_putField, hf]
    exact Finmap.lookup_insert fields
  obtain rfl : b = b' := Option.some.inj (hbody.symm.trans hb')
  have hterm : cString t = t := cString_eq_self (nulFree_of_mem_indexPolygon ht)
  have hwf : (StoreKey.cells (cString i) t).WellFormed := hi.notMem
  -- the last of the writes adds the polygon to this cell, and the cell is a set
  have htraced : Traced env (fun _ _ _ => True) (withPolygon K i p b old (bodyTerms env b)) :=
    hK.withPolygon hi.notMem trivial
  obtain ⟨members, hs, -⟩ := htraced _ hwf
  refine ⟨members, by rw [createIndexCellsSetKeyCStr_eq, ← hij, hterm]; exact hs, ?_⟩
  rw [withPolygon, withCells_apply hwf hi.notMem, if_neg (by simp),
    if_pos ⟨t, ht, by rw [hterm]⟩, asSet_addMembers] at hs
  obtain ⟨s, -, rfl⟩ := Option.map_eq_some_iff.mp hs
  exact Finset.mem_union_right s (Finset.mem_singleton_self p)

/-- A polygon whose body was taken away is indexed: it is not listed any more. -/
theorem indexed_withoutPolygon (hij : cString i = cString j) (old : Finset Bytes) :
    Indexed env (withoutPolygon K i p old) j p := by
  intro b hb
  have hkey : createIndexPolygonsHashKey j = createIndexPolygonsHashKey i := by
    rw [createIndexPolygonsHashKey_eq, createIndexPolygonsHashKey_eq, hij]
  rw [bodyAt, hkey, withoutPolygon, withoutCells_polygons, asHash_withoutBody] at hb
  cases hf : asHash (K (createIndexPolygonsHashKey i)) with
  | none => simp [hf] at hb
  | some fields => simp [hf] at hb

/-- Every polygon of every index is indexed, on a keyspace where each key has its type. -/
structure Complete (env : Environment) (K : Keyspace Bytes) : Prop where
  traced : Traced env (fun _ _ _ => True) K
  indexed : ∀ j q, Accepted j → Indexed env K j q

theorem complete_withoutPolygon (h : Complete env K) (hi : Accepted i) {old : Finset Bytes}
    (hold : asSet (K (createPolygonCellInfoSetKey i p)) = some old) :
    Complete env (withoutPolygon K i p old) where
  traced := h.traced.withoutPolygon hi.notMem old
  indexed j q hj := by
    by_cases hij : cString i = cString j
    · by_cases hqp : q = p
      · subst hqp
        exact indexed_withoutPolygon hij old
      · have hsame : SameFor i q K (withoutPolygon K i p old) :=
          (SameFor.withoutBody hqp).trans (.withoutCells hi.notMem hqp old)
        exact (hsame.congr_index hij).indexed (h.indexed j q hj)
    · exact (SameFor.of_changes (changes_withoutPolygon hold) hi hj hij).indexed (h.indexed j q hj)

theorem complete_withPolygon (h : Complete env K) (hi : Accepted i) {old : Finset Bytes}
    (hold : asSet (K (createPolygonCellInfoSetKey i p)) = some old) :
    Complete env (withPolygon K i p b old (bodyTerms env b)) where
  traced := h.traced.withPolygon hi.notMem trivial
  indexed j q hj := by
    by_cases hij : cString i = cString j
    · by_cases hqp : q = p
      · subst hqp
        exact indexed_withPolygon h.traced hi hij
      · have hsame : SameFor i q K (withPolygon K i p b old (bodyTerms env b)) :=
          .withPolygon hi.notMem hqp old _
        exact (hsame.congr_index hij).indexed (h.indexed j q hj)
    · exact (SameFor.of_changes (changes_withPolygon hold _) hi hj hij).indexed
        (h.indexed j q hj)

/-- No effect of a command loses a member of the cells of a listed polygon. -/
theorem complete_effect (h : Complete env K) {c : Command} {o : Outcome}
    (he : Effect env ω K c o K') : Complete env K' := by
  have htraced := he.traced h.traced fun _ _ _ _ _ => trivial
  cases he with
  | unchanged => exact h
  | created hx =>
      exact ⟨htraced, fun j q hj => indexed_update_marker hx.accepted hj (h.indexed j q hj) _⟩
  | stored hx hp hb hold => exact complete_withPolygon h hx.accepted hold
  | removed hx hp hold => exact complete_withoutPolygon h hx.accepted hold
  | cleared hx hf hloop =>
      have hloop' := clearNames_invariant (Complete env)
        (fun _ _ _ hK hold => complete_withoutPolygon hK hx.accepted hold) hloop h
      exact ⟨htraced, fun j q hj =>
        indexed_update_marker hx.accepted hj (hloop'.indexed j q hj) _⟩
  | stopped hx hf hloop =>
      exact clearNames_invariant (Complete env)
        (fun _ _ _ hK hold => complete_withoutPolygon hK hx.accepted hold) hloop h

theorem complete_of_run {commands : List (Orders × Command)} {outcomes : List Outcome}
    (h : run (step env) commands emptyKeyspace = some (outcomes, K)) : Complete env K := by
  apply run_invariant (Complete env) ?_ h
  · exact ⟨Traced.empty, fun j q _ b hb => by simp [bodyAt, emptyKeyspace] at hb⟩
  · intro l o K₁ K₂ _ hK hstep
    exact complete_effect hK (exec_effect hstep)

/-- `POLYGET` answers with a body only when the index exists and has the polygon. -/
theorem stored_of_polyget (h : exec env ω ⟨.polyget, [j, p]⟩ K = some (replyWithString b, K')) :
    IndexExists K j ∧ bodyAt K j p = some b := by
  by_cases hn : ∃ n ∈ names ⟨.polyget, [j, p]⟩, ¬ Accepted n
  · obtain ⟨text, he, -⟩ := exec_refused env K ω (.polyget j p) hn
    exact absurd (exec_unique h he).1 (by simp [replyWithString, replyWithError])
  · push Not at hn
    have hj : Accepted j := hn j (by simp [names])
    have hp : Accepted p := hn p (by simp [names])
    rcases index_cases K hj with hx | hx | hx
    · refine ⟨hx, ?_⟩
      obtain ⟨hreply, -⟩ := exec_unique h (getPolygonCommand_exists hx hp)
      cases hb : bodyAt K j p with
      | none => simp [hb, replyWithString, replyWithNull] at hreply
      | some b' =>
          rw [hb] at hreply
          simpa [replyWithString, eq_comm] using hreply
    · exact absurd (exec_unique h (getPolygonCommand_absent hx hp)).1
        (by simp [replyWithString, replyWithNull])
    · obtain ⟨text, he⟩ := exec_foreign env ω (.polyget j p) hn rfl
      exact absurd (exec_unique h (he K hx)).1 (by simp [replyWithString, replyWithError])

/-- After every run of commands, with any arguments, every polygon whose body `POLYGET`
answers is returned by every search whose query this body meets. -/
theorem search_misses_nothing {commands : List (Orders × Command)} {outcomes : List Outcome}
    (h : run (step env) commands emptyKeyspace = some (outcomes, K))
    (hget : exec env ω ⟨.polyget, [j, p]⟩ K = some (replyWithString b, K')) {c : Command}
    (hc : OnSearch j c) (hb : Matches env b c) (ω' : Orders) :
    ∃ o, exec env ω' c K = some (o, K) ∧ Lists o p := by
  obtain ⟨hx, hbody⟩ := stored_of_polyget hget
  have hK := complete_of_run h
  rcases traced_search hK.traced hx hc ω' with ⟨-, hno⟩ | ⟨terms, s, hs, hmem, -, hmatch⟩
  · exact absurd hb (hno b)
  · refine ⟨_, hs, lists_map_some.mpr ?_⟩
    obtain ⟨t, ht, hterm⟩ := (hmatch b).mpr hb
    rw [Enumeration.mem_list, hmem]
    exact ⟨t, hterm, hK.indexed j p hx.accepted b hbody t ht⟩

/-- The terms of `p` are forgotten when a second polygon with this C string is stored, and
the search finds `p` all the same. -/
theorem search_misses_nothing_shared :
    ∃ outcomes K o, run (step sampleEnvironment)
        [(ascending, ⟨.iset, [ascii "i"]⟩),
          (ascending, ⟨.polyset, [ascii "i", ascii "p", triangleBody]⟩),
          (ascending, ⟨.polyset, [ascii "i", ascii "p" ++ [0], triangleBody]⟩)] emptyKeyspace =
        some (outcomes, K) ∧
      exec sampleEnvironment ascending ⟨.polysearch, [ascii "i", triangleBody]⟩ K =
        some (o, K) ∧ Lists o (ascii "p") := by
  obtain ⟨K, hrun, -, hx, hb⟩ := exists_sampleRun covered_triangleBody
  obtain ⟨o₁, K₁, os, hset, hrest, ho⟩ := run_cons_eq_some.mp hrun
  obtain ⟨o₂, K₂, os', hput, hend, ho'⟩ := run_cons_eq_some.mp hrest
  obtain ⟨-, rfl⟩ : os' = [] ∧ K₂ = K := by simpa using hend
  have hi := hx.accepted
  have hp : Accepted (ascii "p" ++ [0]) := by decide
  have hterms : bodyTerms sampleEnvironment triangleBody ≠ ∅ :=
    bodyTerms_eq_empty_iff.not.mpr covered_triangleBody
  obtain ⟨old, hold⟩ :=
    (complete_of_run hrun).traced.asSet_cellinfo hi.notMem (ascii "p" ++ [0])
  have hput' := setPolygonCommand_stored ascending hx hp hterms
  rw [hold, Option.map_some] at hput'
  set K₃ := withPolygon K₂ (ascii "i") (ascii "p" ++ [0]) triangleBody old
    (bodyTerms sampleEnvironment triangleBody)
  have hrun' : run (step sampleEnvironment)
      [(ascending, ⟨.iset, [ascii "i"]⟩),
        (ascending, ⟨.polyset, [ascii "i", ascii "p", triangleBody]⟩),
        (ascending, ⟨.polyset, [ascii "i", ascii "p" ++ [0], triangleBody]⟩)] emptyKeyspace =
      some (_, K₃) :=
    run_cons_eq_some.mpr ⟨_, _, _, hset, run_cons_eq_some.mpr ⟨_, _, _, hput,
      run_cons_eq_some.mpr ⟨_, _, _, hput', rfl, rfl⟩, rfl⟩, rfl⟩
  -- the body of `p` is still there
  have hsame : SameFor (ascii "i") (ascii "p") K₂ K₃ :=
    .withPolygon hi.notMem (by decide) old _
  have hget : exec sampleEnvironment ascending ⟨.polyget, [ascii "i", ascii "p"]⟩ K₃ =
      some (replyWithString triangleBody, K₃) := by
    have hpolyget := getPolygonCommand_exists (hsame.indexExists hx) plainName_p.1
    rwa [hsame.body, hb] at hpolyget
  have hmeets : Matches sampleEnvironment triangleBody
      ⟨.polysearch, [ascii "i", triangleBody]⟩ := by
    rw [Matches, bodyCovering_triangleBody]
    exact ⟨_, List.mem_singleton_self _, _, List.mem_singleton_self _, Meets.refl _⟩
  obtain ⟨o, he, hfound⟩ := search_misses_nothing hrun' hget (.polysearch triangleBody) hmeets
    ascending
  exact ⟨_, K₃, o, hrun', he, hfound⟩

end RedisS2Geo.Guarantees
