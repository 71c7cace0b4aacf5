import RedisS2Geo.Foundation.Histories
import RedisS2Geo.Store.Events
import RedisS2Geo.Store.Types

/-!
# Where the members of the cells come from

Names may have zero bytes, so that polygons share their cell info, and keys may be lost
at any time. Then the keyspace stands for no contents any more. What remains: every key
has its type, the marker its value, and everything that is stored under an index was put
there by an acknowledged `POLYSET`.
-/

namespace RedisS2Geo.Store
open Foundation Source Covering

variable {env : Environment} {ω : Orders} {K K' : Keyspace Bytes}

/-- The acknowledged bodies: index, as a C string, polygon and body. -/
abbrev Acknowledgements := Bytes → Bytes → Bytes → Prop

variable {S : Acknowledgements}

/-- The values that the module may leave at a key: bodies that were acknowledged, and
members that were acknowledged with a body that has the term. -/
def StoreKey.Traced (env : Environment) (S : Acknowledgements) :
    StoreKey → Option (Value Bytes) → Prop
  | .info _, v => markerStatus v ≠ .error .invalidIndex
  | .polygons n, v => ∃ fields, asHash v = some fields ∧ ∀ p b, fields.lookup p = some b → S n p b
  | .cells n t, v =>
      ∃ s, asSet v = some s ∧ ∀ p ∈ s, ∃ b, S n p b ∧ t ∈ bodyTerms env b
  | .cellinfo _ _, v => asSet v ≠ none

/-- Every key of the module has a traced value. -/
def Traced (env : Environment) (S : Acknowledgements) (K : Keyspace Bytes) : Prop :=
  ∀ k : StoreKey, k.WellFormed → k.Traced env S (K k.bytes)

theorem StoreKey.traced_none (k : StoreKey) : k.Traced env S none := by
  cases k <;> simp [StoreKey.Traced, markerStatus]

theorem Traced.empty : Traced env S (fun _ => none) := fun k _ => k.traced_none

/-! ### Writes to one key -/

/-- A write to one key, seen at another one. -/
theorem update_bytes_of_wellFormed {k k' : StoreKey} (hk : k.WellFormed) (hk' : k'.WellFormed)
    (v : Option (Value Bytes)) :
    Function.update K k'.bytes v k.bytes = if k = k' then v else K k.bytes := by
  split
  · subst k'
    rw [Function.update_self]
  · exact Function.update_of_ne ((StoreKey.bytes_inj hk hk').not.mpr ‹_›) _ _

/-- A traced value may be written to its key. -/
theorem Traced.update (h : Traced env S K) {k : StoreKey} (hk : k.WellFormed)
    {v : Option (Value Bytes)} (hv : k.Traced env S v) :
    Traced env S (Function.update K k.bytes v) := by
  intro k' hk'
  rw [update_bytes_of_wellFormed hk' hk]
  split
  · subst k'
    exact hv
  · exact h k' hk'

/-- A key may be lost, and any value may be written away from the keys of the module. -/
theorem Traced.foreign (h : Traced env S K) {key : Bytes} {v : Option (Value Bytes)}
    (hv : v = none ∨ ∀ k : StoreKey, k.WellFormed → key ≠ k.bytes) :
    Traced env S (Function.update K key v) := by
  intro k hk
  by_cases hkey : k.bytes = key
  · obtain rfl | hv := hv
    · rw [← hkey, Function.update_self]
      exact k.traced_none
    · exact absurd hkey.symm (hv k hk)
  · rw [Function.update_of_ne hkey]
    exact h k hk

section Index
variable {i p : Bytes}

theorem Traced.withMarker (h : Traced env S K) (hi : entityDelim ∉ cString i) :
    Traced env S (withMarker K i) := by
  apply h.update (k := .info (cString i)) hi
  have hmarker : cString indexParamsValue = indexParamsValue := by decide
  have hm : markerStatus (K (createIndexMetaHashKey i)) ≠ .error .invalidIndex :=
    h (.info (cString i)) hi
  change markerStatus (putField _ _ (K (createIndexMetaHashKey i))) ≠ _
  cases hv : asHash (K (createIndexMetaHashKey i)) with
  | none => exact absurd (by simp [markerStatus, hv]) hm
  | some fields => simp [markerStatus, asHash_eq_some_iff.mp hv, hmarker]

theorem Traced.withoutMarker (h : Traced env S K) (hi : entityDelim ∉ cString i) :
    Traced env S (withoutMarker K i) :=
  h.update (k := .info (cString i)) hi (StoreKey.traced_none _)

/-- The hash of the bodies holds acknowledged bodies. -/
theorem Traced.exists_fields (h : Traced env S K) (hi : entityDelim ∉ cString i) :
    ∃ fields, asHash (K (createIndexPolygonsHashKey i)) = some fields ∧
      ∀ p b, fields.lookup p = some b → S (cString i) p b :=
  h (.polygons (cString i)) hi

theorem Traced.asSet_cellinfo (h : Traced env S K) (hi : entityDelim ∉ cString i) (p : Bytes) :
    ∃ old, asSet (K (createPolygonCellInfoSetKey i p)) = some old :=
  Option.ne_none_iff_exists'.mp (h (.cellinfo (cString i) (cString p)) hi)

theorem Traced.withBody (h : Traced env S K) (hi : entityDelim ∉ cString i) {b : Bytes}
    (hb : S (cString i) p b) : Traced env S (withBody K i p b) := by
  apply h.update (k := .polygons (cString i)) hi
  obtain ⟨fields, hf, hfields⟩ := h.exists_fields hi
  refine ⟨fields.insert p b, ?_, fun q c hq => ?_⟩
  · rw [asHash_putField, hf, Option.map_some]
  · by_cases hqp : q = p
    · subst hqp
      rw [Finmap.lookup_insert, Option.some.injEq] at hq
      exact hq ▸ hb
    · rw [Finmap.lookup_insert_of_ne fields hqp] at hq
      exact hfields q c hq

theorem Traced.withoutBody (h : Traced env S K) (hi : entityDelim ∉ cString i) :
    Traced env S (withoutBody K i p) := by
  apply h.update (k := .polygons (cString i)) hi
  obtain ⟨fields, hf, hfields⟩ := h.exists_fields hi
  refine ⟨fields.erase p, ?_, fun q c hq => ?_⟩
  · rw [asHash_dropField, hf, Option.map_some]
  · by_cases hqp : q = p
    · subst hqp
      rw [Finmap.lookup_erase] at hq
      cases hq
    · rw [Finmap.lookup_erase_ne hqp] at hq
      exact hfields q c hq

/-! ### Writes to cells -/

/-- The polygon may be added to the cells of an acknowledged body. -/
theorem Traced.withCells (h : Traced env S K) (hi : entityDelim ∉ cString i) {b : Bytes}
    (hb : S (cString i) p b) : Traced env S (withCells K i p (bodyTerms env b)) := by
  intro k hk
  rw [withCells_apply hk hi]
  split
  · rename_i hinfo
    subst hinfo
    have hv : asSet (K (createPolygonCellInfoSetKey i p)) ≠ none := h _ hk
    change asSet (addMembers _ (K (createPolygonCellInfoSetKey i p))) ≠ none
    rw [asSet_addMembers]
    simpa using hv
  · split
    · rename_i hcell
      obtain ⟨t, ht, rfl⟩ := hcell
      obtain ⟨s, hs, hmem⟩ := h _ hk
      refine ⟨s ∪ {p}, by rw [asSet_addMembers, hs, Option.map_some], fun q hq => ?_⟩
      rcases Finset.mem_union.mp hq with hq | hq
      · exact hmem q hq
      · -- a term has no zero bytes
        rw [Finset.mem_singleton] at hq
        refine ⟨b, hq ▸ hb, ?_⟩
        rwa [cString_eq_self (nulFree_of_mem_indexPolygon ht)]
    · exact h k hk

theorem Traced.withoutCells (h : Traced env S K) (hi : entityDelim ∉ cString i)
    (old : Finset Bytes) : Traced env S (withoutCells K i p old) := by
  intro k hk
  rw [withoutCells_apply hk hi]
  split
  · exact k.traced_none
  · split
    · rename_i hcell
      obtain ⟨t, ht, rfl⟩ := hcell
      obtain ⟨s, hs, hmem⟩ := h _ hk
      refine ⟨s.erase p, by rw [asSet_dropMember, hs, Option.map_some], fun q hq => ?_⟩
      exact hmem q (Finset.mem_of_mem_erase hq)
    · exact h k hk

theorem Traced.withPolygon (h : Traced env S K) (hi : entityDelim ∉ cString i) {b : Bytes}
    {old : Finset Bytes} (hb : S (cString i) p b) :
    Traced env S (withPolygon K i p b old (bodyTerms env b)) := by
  have hbody : Traced env S (Store.withBody K i p b) := h.withBody hi hb
  rw [Store.withPolygon]
  split
  · exact hbody.withCells hi hb
  · exact (hbody.withoutCells hi old).withCells hi hb

theorem Traced.withoutPolygon (h : Traced env S K) (hi : entityDelim ∉ cString i)
    (old : Finset Bytes) : Traced env S (withoutPolygon K i p old) :=
  (h.withoutBody hi).withoutCells hi old

end Index

/-! ### Commands -/

theorem Traced.clearNames {i : Bytes} (h : Traced env S K) (hi : entityDelim ∉ cString i)
    {names : List Bytes} {done : Bool} (hloop : clearNames i names K = some (done, K')) :
    Traced env S K' :=
  clearNames_invariant (Traced env S) (fun _ _ old hK _ => hK.withoutPolygon hi old) hloop h

/-- A command keeps the keyspace traced, when the body that it stores is acknowledged. -/
theorem Effect.traced {c : Command} {o : Outcome} (he : Effect env ω K c o K')
    (h : Traced env S K)
    (hS : ∀ i p b, c = ⟨.polyset, [i, p, b]⟩ → o = replyWithLongLong 1 → S (cString i) p b) :
    Traced env S K' := by
  cases he with
  | unchanged => exact h
  | created hx => exact h.withMarker hx.accepted.notMem
  | stored hx hp hb hold => exact h.withPolygon hx.accepted.notMem (hS _ _ _ rfl rfl)
  | removed hx hp hold => exact h.withoutPolygon hx.accepted.notMem _
  | cleared hx hf hloop =>
      exact (h.clearNames hx.accepted.notMem hloop).withoutMarker hx.accepted.notMem
  | stopped hx hf hloop => exact h.clearNames hx.accepted.notMem hloop

/-- No command is fatal where every key has its type. -/
theorem Traced.not_fatal (h : Traced env S K) {c : Command} : ¬ Fatal env ω K c := by
  intro hfatal
  cases hfatal with
  | stored hx hp hb hinfo | removed hx hp hinfo =>
      obtain ⟨old, hold⟩ := h.asSet_cellinfo hx.accepted.notMem _
      rw [hold] at hinfo
      cases hinfo
  | cleared hx hf hloop =>
      obtain ⟨pre, p, post, -, -, -, hinfo⟩ := clearNames_eq_none_iff.mp hloop
      -- the rounds of the loop see the types that the keyspace had before
      obtain ⟨old, hold⟩ := h.asSet_cellinfo hx.accepted.notMem p
      rw [hold] at hinfo
      cases hinfo

/-! ### Replies -/

/-- The error replies that blame the request, and the one for a loop of `IDEL` that met a
polygon without terms. The other texts of the handlers blame the keyspace. -/
def requestErrors : List String :=
  ["wrong number of arguments", "invalid index name", "invalid polygon name",
    "index already exists", "invalid index", "invalid polygon", "invalid point",
    "empty cell union for a given polygon", "failed to delete the index"]

/-- An outcome that blames the keyspace for nothing. -/
def Blameless (o : Outcome) : Prop := ∀ text, o.reply = .error text → text ∈ requestErrors

theorem blameless_replyWithError {text : String} (h : text ∈ requestErrors) :
    Blameless (replyWithError text) := by
  intro text' he
  cases he
  exact h

theorem blameless_of_ne {o : Outcome} (h : ∀ text, o.reply ≠ .error text) : Blameless o :=
  fun text he => absurd he (h text)

/-- The cells that a search reads are sets. -/
theorem Traced.exists_unionAt {i : Bytes} (h : Traced env S K) (hi : entityDelim ∉ cString i)
    (ω : Orders) (terms : Finset Bytes) :
    ∃ s, unionAt K (cellKeys ω i terms) = some s ∧
      ∀ p, p ∈ s ↔ ∃ t ∈ terms, ∃ members,
        asSet (K (createIndexCellsSetKeyCStr i t)) = some members ∧ p ∈ members := by
  obtain ⟨s, hs, hmem⟩ := unionAt_eq_some K (cellKeys ω i terms) (by
    intro key hkey
    obtain ⟨t, -, rfl⟩ := List.mem_map.mp hkey
    obtain ⟨members, hm, -⟩ := h (.cells (cString i) (cString t)) hi
    rw [createIndexCellsSetKeyCStr_eq, hm]
    exact Option.some_ne_none _)
  refine ⟨s, hs, fun p => ?_⟩
  simp [hmem, cellKeys]

/-- On an existing index every command answers without blaming the keyspace. -/
theorem Traced.blameless_exists (h : Traced env S K) (ω : Orders) {c : Command}
    (hs : Shaped c) (hname : ∀ n ∈ names c, Accepted n) {i : Bytes}
    (hi : c.args.head? = some i) (hx : IndexExists K i) {o : Outcome}
    (he : exec env ω c K = some (o, K')) : Blameless o := by
  have hn := hx.accepted.notMem
  obtain ⟨fields, hf, -⟩ := h.exists_fields hn
  cases hs <;> obtain rfl := Option.some.inj hi
  case iset =>
    obtain ⟨rfl, -⟩ := exec_unique he (setIndexCommand_exists hx)
    exact blameless_replyWithError (by decide)
  case iget =>
    obtain ⟨rfl, -⟩ := exec_unique he (getIndexCommand_exists hx)
    exact blameless_of_ne fun text => by simp [replyWithSimpleString]
  case idel =>
    obtain ⟨r, -, hr⟩ := Option.map_eq_some_iff.mp ((deleteIndexCommand_eq ω hx hf).symm.trans he)
    split at hr <;> obtain ⟨rfl, -⟩ := Prod.mk.inj hr
    · exact blameless_of_ne fun text => by simp [replyWithLongLong]
    · exact blameless_replyWithError (by decide)
  case polyset p b =>
    have hp := hname p (by simp [names])
    by_cases hb : bodyTerms env b = ∅
    · obtain ⟨text, htext, hrefused⟩ := setPolygonCommand_refused ω hp hb
      obtain ⟨rfl, -⟩ := exec_unique he (hrefused K hx)
      rcases (by simpa using htext : text = _ ∨ text = _) with rfl | rfl <;>
        exact blameless_replyWithError (by decide)
    · obtain ⟨old, -, hr⟩ :=
        Option.map_eq_some_iff.mp ((setPolygonCommand_stored ω hx hp hb).symm.trans he)
      obtain ⟨rfl, -⟩ := Prod.mk.inj hr
      exact blameless_of_ne fun text => by simp [replyWithLongLong]
  case polyget j p =>
    have hp := hname p (by simp [names])
    obtain ⟨rfl, -⟩ := exec_unique he (getPolygonCommand_exists hx hp)
    apply blameless_of_ne
    intro text
    cases bodyAt K j p <;> simp [replyWithNull, replyWithString]
  case polymget p rest =>
    have hp : ∀ q ∈ p :: rest, Accepted q := fun q hq => hname q (List.mem_cons_of_mem _ hq)
    obtain ⟨rfl, -⟩ := exec_unique he (getMultiplePolygonsCommand_exists hx (by simp) hp hf)
    exact blameless_of_ne fun text => by simp [replyWithArray]
  case polydel p =>
    have hp := hname p (by simp [names])
    obtain ⟨old, -, hr⟩ :=
      Option.map_eq_some_iff.mp ((deletePolygonCommand_exists ω hx hp).symm.trans he)
    split at hr <;> obtain ⟨rfl, -⟩ := Prod.mk.inj hr <;>
      exact blameless_of_ne fun text => by simp [replyWithLongLong]
  case polylist =>
    obtain ⟨rfl, -⟩ := exec_unique he (listPolygonsCommand_exists ω hx hf)
    exact blameless_of_ne fun text => by simp [replyWithArray]
  case polysearch b =>
    cases hb : parsePolygon env b with
    | none =>
        obtain ⟨rfl, -⟩ := exec_unique he (searchPolygonCommand_unparsed ω hx hb)
        exact blameless_replyWithError (by decide)
    | some polygon =>
        by_cases hc : indexPolygonForOverlapTest env (some polygon) = ∅
        · obtain ⟨rfl, -⟩ := exec_unique he (searchPolygonCommand_uncovered ω hx hb hc)
          exact blameless_replyWithError (by decide)
        · obtain ⟨s, hs, -⟩ := h.exists_unionAt hn ω
            (indexPolygonForOverlapTest env (some polygon))
          obtain ⟨rfl, -⟩ := exec_unique he (searchPolygonCommand_found ω hx hb hc hs)
          exact blameless_of_ne fun text => by simp [replyWithArray]
  case pointsearch b =>
    cases hb : parseLatLng env b with
    | none =>
        obtain ⟨rfl, -⟩ := exec_unique he (searchPointCommand_unparsed ω hx hb)
        exact blameless_replyWithError (by decide)
    | some point =>
        obtain ⟨s, hs, -⟩ := h.exists_unionAt hn ω (indexPoint env (some point))
        obtain ⟨rfl, -⟩ := exec_unique he (searchPointCommand_found ω hx hb hs)
        exact blameless_of_ne fun text => by simp [replyWithArray]

/-- Without the index every command answers without blaming the keyspace. -/
theorem blameless_absent (ω : Orders) {c : Command} (hs : Shaped c)
    (hname : ∀ n ∈ names c, Accepted n) {i : Bytes} (hi : c.args.head? = some i)
    (hx : IndexAbsent K i) {o : Outcome} (he : exec env ω c K = some (o, K')) :
    Blameless o := by
  cases hs <;> obtain rfl := Option.some.inj hi
  case iset =>
    obtain ⟨rfl, -⟩ := exec_unique he (setIndexCommand_absent hx)
    exact blameless_of_ne fun text => by simp [replyWithSimpleString]
  case iget =>
    obtain ⟨rfl, -⟩ := exec_unique he (getIndexCommand_absent hx)
    exact blameless_of_ne fun text => by simp [replyWithNull]
  case idel =>
    obtain ⟨rfl, -⟩ := exec_unique he (deleteIndexCommand_absent ω hx)
    exact blameless_of_ne fun text => by simp [replyWithLongLong]
  case polyset p b =>
    obtain ⟨rfl, -⟩ :=
      exec_unique he (setPolygonCommand_absent ω hx (hname p (by simp [names])))
    exact blameless_replyWithError (by decide)
  case polyget p =>
    obtain ⟨rfl, -⟩ := exec_unique he (getPolygonCommand_absent hx (hname p (by simp [names])))
    exact blameless_of_ne fun text => by simp [replyWithNull]
  case polymget p rest =>
    have hp : ∀ q ∈ p :: rest, Accepted q := fun q hq => hname q (List.mem_cons_of_mem _ hq)
    obtain ⟨rfl, -⟩ := exec_unique he (getMultiplePolygonsCommand_absent hx (by simp) hp)
    exact blameless_of_ne fun text => by simp [replyWithArray]
  case polydel p =>
    obtain ⟨rfl, -⟩ :=
      exec_unique he (deletePolygonCommand_absent ω hx (hname p (by simp [names])))
    exact blameless_of_ne fun text => by simp [replyWithLongLong]
  case polylist =>
    obtain ⟨rfl, -⟩ := exec_unique he (listPolygonsCommand_absent ω hx)
    exact blameless_of_ne fun text => by simp [replyWithArray]
  case polysearch b =>
    obtain ⟨rfl, -⟩ := exec_unique he (searchPolygonCommand_absent ω hx)
    exact blameless_replyWithError (by decide)
  case pointsearch b =>
    obtain ⟨rfl, -⟩ := exec_unique he (searchPointCommand_absent ω hx)
    exact blameless_replyWithError (by decide)

/-- Every command answers and blames the keyspace for nothing. -/
theorem Traced.exec_answers (h : Traced env S K) (ω : Orders) (c : Command) :
    ∃ o K', exec env ω c K = some (o, K') ∧ Blameless o := by
  rcases settled env ω K c with hfatal | ⟨o, K', he, -⟩
  · exact absurd hfatal h.not_fatal
  refine ⟨o, K', he, ?_⟩
  by_cases hs : Shaped c
  · by_cases hr : ∃ n ∈ names c, ¬ Accepted n
    · obtain ⟨text, he', htext⟩ := exec_refused env K ω hs hr
      obtain ⟨rfl, -⟩ := exec_unique he he'
      rcases htext with rfl | rfl <;> exact blameless_replyWithError (by decide)
    · push Not at hr
      obtain ⟨i, hi, hmem⟩ : ∃ i, c.args.head? = some i ∧ i ∈ names c := by
        cases hs <;> exact ⟨_, rfl, by simp [names]⟩
      rcases index_cases K (hr i hmem) with hx | hx | hx
      · exact h.blameless_exists ω hs hr hi hx he
      · exact blameless_absent ω hs hr hi hx he
      · exact absurd hx.marker (h (.info (cString i)) hx.accepted.notMem)
  · obtain ⟨rfl, -⟩ := exec_unique he (exec_wrongArity ω hs)
    exact blameless_replyWithError (by decide)

end RedisS2Geo.Store
