import RedisS2Geo.Store.Locality
import RedisS2Geo.Store.Runs

/-!
# Which names are isolated from each other

Keys are printed from C strings, so that two index names that differ only behind
a zero byte share all their keys. All other index names are isolated, on every
keyspace. Within one index two different polygon names are always isolated, even
when they share a cell info key: hash fields and set members keep their length.
-/

namespace RedisS2Geo.Guarantees
open Foundation Source Covering Store

variable {env : Environment} {K K' : Keyspace Bytes} {i j p q b : Bytes}

/-! ### What shows of one polygon name -/

/-- The second keyspace shows the same of a polygon name as the first one: the marker, the
body, and whether the name is in each of the cells. -/
structure SameFor (j q : Bytes) (K K' : Keyspace Bytes) : Prop where
  marker : K' (createIndexMetaHashKey j) = K (createIndexMetaHashKey j)
  body : bodyAt K' j q = bodyAt K j q
  member : ∀ t, (asSet (K' (createIndexCellsSetKeyCStr j t))).map (fun s => decide (q ∈ s)) =
    (asSet (K (createIndexCellsSetKeyCStr j t))).map fun s => decide (q ∈ s)

namespace SameFor

theorem refl (j q : Bytes) (K : Keyspace Bytes) : SameFor j q K K := ⟨rfl, rfl, fun _ => rfl⟩

theorem trans {K₁ K₂ K₃ : Keyspace Bytes} (h : SameFor j q K₁ K₂) (h' : SameFor j q K₂ K₃) :
    SameFor j q K₁ K₃ :=
  ⟨h'.marker.trans h.marker, h'.body.trans h.body, fun t => (h'.member t).trans (h.member t)⟩

/-- Only the C string of the index name counts. -/
theorem congr_index (hij : cString i = cString j) (h : SameFor i q K K') : SameFor j q K K' where
  marker := by
    have hm := h.marker
    rwa [createIndexMetaHashKey_eq, hij] at hm
  body := by
    have hb := h.body
    simpa only [bodyAt, createIndexPolygonsHashKey, hij] using hb
  member t := by
    have hm := h.member t
    rwa [createIndexCellsSetKeyCStr_eq, hij] at hm

/-- Keyspaces that agree on the keys of the index show the same. -/
theorem of_eqOn (h : Set.EqOn K' K (region (cString j))) : SameFor j q K K' where
  marker := h (bytes_mem_region (.info (cString j)))
  body := by
    have hp := h (bytes_mem_region (.polygons (cString j)))
    simp only [bodyAt, createIndexPolygonsHashKey_eq, hp]
  member t := by
    rw [createIndexCellsSetKeyCStr_eq, h (bytes_mem_region (.cells (cString j) (cString t)))]

/-! ### Writes about another polygon of the same index -/

theorem lookup_putField {v : Option (Value Bytes)} (h : q ≠ p) :
    (asHash (putField p b v)).bind (fun fields => fields.lookup q) =
      (asHash v).bind fun fields => fields.lookup q := by
  rw [asHash_putField]
  cases asHash v with
  | none => rfl
  | some fields => exact Finmap.lookup_insert_of_ne fields h

theorem lookup_dropField {v : Option (Value Bytes)} (h : q ≠ p) :
    (asHash (dropField p v)).bind (fun fields => fields.lookup q) =
      (asHash v).bind fun fields => fields.lookup q := by
  rw [asHash_dropField]
  cases asHash v with
  | none => rfl
  | some fields => exact Finmap.lookup_erase_ne h

theorem mem_addMembers {v : Option (Value Bytes)} (h : q ≠ p) :
    (asSet (addMembers {p} v)).map (fun s => decide (q ∈ s)) =
      (asSet v).map fun s => decide (q ∈ s) := by
  rw [asSet_addMembers]
  cases asSet v with
  | none => rfl
  | some s => simp [h]

theorem mem_dropMember {v : Option (Value Bytes)} (h : q ≠ p) :
    (asSet (dropMember p v)).map (fun s => decide (q ∈ s)) =
      (asSet v).map fun s => decide (q ∈ s) := by
  rw [asSet_dropMember]
  cases asSet v with
  | none => rfl
  | some s => simp [h]

/-- A write to the bodies alone shows the same of a name whose body it keeps. -/
theorem of_bodies
    (h : ∀ k : StoreKey, k.index = cString i → k ≠ .polygons (cString i) →
      K' k.bytes = K k.bytes)
    (hbody : bodyAt K' i q = bodyAt K i q) : SameFor i q K K' where
  marker := h (.info (cString i)) rfl (by simp)
  body := hbody
  member t := by
    rw [createIndexCellsSetKeyCStr_eq, h (.cells (cString i) (cString t)) rfl (by simp)]

theorem withBody (h : q ≠ p) : SameFor i q K (withBody K i p b) := by
  apply of_bodies fun k hk hne => withBody_of_ne K i p b hk hne
  simp only [bodyAt, Store.withBody, Function.update_self]
  exact lookup_putField h

theorem withoutBody (h : q ≠ p) : SameFor i q K (withoutBody K i p) := by
  apply of_bodies fun k hk hne => withoutBody_of_ne K i p hk hne
  simp only [bodyAt, Store.withoutBody, Function.update_self]
  exact lookup_dropField h

/-- A write to the cells alone shows the same of a name whose membership it keeps. -/
theorem of_cells
    (h : ∀ k : StoreKey, k = .info (cString i) ∨ k = .polygons (cString i) →
      K' k.bytes = K k.bytes)
    (hmember : ∀ t, (asSet (K' (StoreKey.cells (cString i) t).bytes)).map
        (fun s => decide (q ∈ s)) =
      (asSet (K (StoreKey.cells (cString i) t).bytes)).map fun s => decide (q ∈ s)) :
    SameFor i q K K' where
  marker := h (.info (cString i)) (Or.inl rfl)
  body := by
    rw [bodyAt, bodyAt, createIndexPolygonsHashKey_eq, h _ (Or.inr rfl)]
  member t := hmember (cString t)

theorem withCells (hi : entityDelim ∉ cString i) (h : q ≠ p) (cells : Finset Bytes) :
    SameFor i q K (withCells K i p cells) := by
  apply of_cells fun k hk => withCells_of_ne hi cells hk
  intro t
  rw [withCells_apply (k := .cells (cString i) t) hi hi, if_neg (by simp)]
  split
  · exact mem_addMembers h
  · rfl

theorem withoutCells (hi : entityDelim ∉ cString i) (h : q ≠ p) (cells : Finset Bytes) :
    SameFor i q K (withoutCells K i p cells) := by
  apply of_cells fun k hk => withoutCells_of_ne hi cells hk
  intro t
  rw [withoutCells_apply (k := .cells (cString i) t) hi hi, if_neg (by simp)]
  split
  · exact mem_dropMember h
  · rfl

theorem withPolygon (hi : entityDelim ∉ cString i) (h : q ≠ p) (old cells : Finset Bytes) :
    SameFor i q K (withPolygon K i p b old cells) := by
  have hbody : SameFor i q K (Store.withBody K i p b) := .withBody h
  unfold Store.withPolygon
  split
  · exact hbody.trans (.withCells hi h cells)
  · exact (hbody.trans (.withoutCells hi h old)).trans (.withCells hi h cells)

end SameFor

/-! ### Commands about another polygon -/

/-- The commands about one polygon of one index. -/
inductive OnPolygon (i p : Bytes) : Command → Prop
  | polyset (b : Bytes) : OnPolygon i p ⟨.polyset, [i, p, b]⟩
  | polydel : OnPolygon i p ⟨.polydel, [i, p]⟩
  | polyget : OnPolygon i p ⟨.polyget, [i, p]⟩

theorem OnPolygon.head {c : Command} (h : OnPolygon i p c) : c.args.head? = some i := by
  cases h <;> rfl

/-- A command on a polygon whose name is another one, in the same index. -/
theorem sameFor_of_ne {c : Command} {ω : Orders} {o : Outcome} (hc : OnPolygon i p c)
    (hi : Accepted i) (hp : Accepted p) (hne : q ≠ p) (he : exec env ω c K = some (o, K')) :
    SameFor i q K K' := by
  have hunchanged : ∀ {o'}, exec env ω c K = some (o', K) → SameFor i q K K' := by
    intro o' he'
    obtain ⟨-, rfl⟩ := exec_unique he he'
    exact SameFor.refl i q _
  have hshaped : Shaped c := by cases hc <;> constructor
  have hnames : ∀ n ∈ names c, Accepted n := by
    cases hc <;> simp [names, hi, hp]
  rcases index_cases K hi with hx | hx | hx
  · cases hc with
    | polyset b =>
        by_cases hb : bodyTerms env b = ∅
        · obtain ⟨text, -, he'⟩ := setPolygonCommand_refused ω hp hb
          exact hunchanged (he' K hx)
        · have he' := (setPolygonCommand_stored ω hx hp hb).symm.trans he
          obtain ⟨old, -, hres⟩ := Option.map_eq_some_iff.mp he'
          obtain ⟨-, rfl⟩ := Prod.mk.inj hres
          exact .withPolygon hi.notMem hne old _
    | polydel =>
        have he' := (deletePolygonCommand_exists ω hx hp).symm.trans he
        obtain ⟨old, -, hres⟩ := Option.map_eq_some_iff.mp he'
        have hbody : SameFor i q K (withoutBody K i p) := .withoutBody hne
        split at hres <;> obtain ⟨-, rfl⟩ := Prod.mk.inj hres
        · exact hbody
        · exact hbody.trans (.withoutCells hi.notMem hne _)
    | polyget => exact hunchanged (getPolygonCommand_exists hx hp)
  · cases hc with
    | polyset b => exact hunchanged (setPolygonCommand_absent ω hx hp)
    | polydel => exact hunchanged (deletePolygonCommand_absent ω hx hp)
    | polyget => exact hunchanged (getPolygonCommand_absent hx hp)
  · obtain ⟨text, he'⟩ := exec_foreign env ω hshaped hnames hc.head
    exact hunchanged (he' K hx)

/-- A command on a polygon of an index with another C string. -/
theorem sameFor_of_index {c : Command} {ω : Orders} {o : Outcome} (hi : Accepted i)
    (hj : Accepted j) (hc : c.args.head? = some i) (hne : cString i ≠ cString j)
    (he : exec env ω c K = some (o, K')) : SameFor j q K K' :=
  SameFor.of_eqOn fun _ hk => (local_exec env ω i hc).frame he
    (Set.disjoint_right.mp (disjoint_region hi.notMem hj.notMem hne) hk)

/-- Commands on a polygon that is told apart by its own name or by the C string of its
index, in any number. -/
theorem sameFor_run {ls : List (Orders × Command)} {os : List Outcome} (hi : Accepted i)
    (hj : Accepted j) (hp : Accepted p) (hls : ∀ l ∈ ls, OnPolygon i p l.2)
    (hsep : cString i ≠ cString j ∨ cString i = cString j ∧ q ≠ p)
    (hr : run (step env) ls K = some (os, K')) : SameFor j q K K' := by
  induction ls generalizing K os with
  | nil =>
      obtain ⟨-, rfl⟩ : [] = os ∧ K = K' := by simpa using hr
      exact SameFor.refl j q K
  | cons l ls ih =>
      obtain ⟨o, K₁, os', hs, hr', -⟩ := run_cons_eq_some.mp hr
      have hl : OnPolygon i p l.2 := hls l (by simp)
      have h₁ : SameFor j q K K₁ := by
        rcases hsep with hne | ⟨hij, hne⟩
        · exact sameFor_of_index hi hj hl.head hne hs
        · exact (sameFor_of_ne hl hi hp hne hs).congr_index hij
      exact h₁.trans (ih (fun k hk => hls k (by simp [hk])) hr')

/-! ### Observing one polygon -/

theorem SameFor.indexExists (h : SameFor j q K K') (hx : IndexExists K j) : IndexExists K' j :=
  ⟨hx.accepted, h.marker ▸ hx.marker⟩

theorem SameFor.indexAbsent (h : SameFor j q K K') (hx : IndexAbsent K j) : IndexAbsent K' j :=
  ⟨hx.accepted, h.marker ▸ hx.marker⟩

theorem SameFor.indexForeign (h : SameFor j q K K') (hx : IndexForeign K j) :
    IndexForeign K' j :=
  ⟨hx.accepted, h.marker ▸ hx.marker⟩

/-- The reply of a command, when it has one. -/
def replyOf (env : Environment) (ω : Orders) (c : Command) (K : Keyspace Bytes) :
    Option Outcome := (exec env ω c K).map Prod.fst

/-- The body of the polygon is answered alike. -/
theorem SameFor.polyget (h : SameFor j q K K') (hj : Accepted j) (hq : Accepted q) (ω : Orders) :
    replyOf env ω ⟨.polyget, [j, q]⟩ K' = replyOf env ω ⟨.polyget, [j, q]⟩ K := by
  rcases index_cases K hj with hx | hx | hx
  · simp [replyOf, exec, getPolygonCommand_exists hx hq,
      getPolygonCommand_exists (h.indexExists hx) hq, h.body]
  · simp [replyOf, exec, getPolygonCommand_absent hx hq,
      getPolygonCommand_absent (h.indexAbsent hx) hq]
  · obtain ⟨text, he⟩ := exec_foreign env (i := j) ω (.polyget j q)
      (by simp [names, hj, hq]) rfl
    simp [replyOf, he K hx, he K' (h.indexForeign hx)]

/-- The union of some cells has the name in both keyspaces or in none. -/
theorem SameFor.unionAt (h : SameFor j q K K') (ω : Orders) (terms : Finset Bytes) :
    (unionAt K' (cellKeys ω j terms)).map (fun s => decide (q ∈ s)) =
      (unionAt K (cellKeys ω j terms)).map fun s => decide (q ∈ s) := by
  apply map_mem_unionAt_congr
  intro key hkey
  obtain ⟨t, -, rfl⟩ := List.mem_map.mp hkey
  exact h.member t

/-- The two searches of one index. -/
inductive OnSearch (j : Bytes) : Command → Prop
  | polysearch (b : Bytes) : OnSearch j ⟨.polysearch, [j, b]⟩
  | pointsearch (b : Bytes) : OnSearch j ⟨.pointsearch, [j, b]⟩

/-- The search returns the name. -/
def Finds (env : Environment) (ω : Orders) (c : Command) (K : Keyspace Bytes) (q : Bytes) :
    Prop := ∃ o K', exec env ω c K = some (o, K') ∧ Lists o q

/-- A search either is refused on every keyspace or returns the union of some cells, unless
one of these has another type. -/
theorem search_cases (env : Environment) {c : Command} (hc : OnSearch j c) (ω : Orders) :
    (∃ text, ∀ K, IndexExists K j → exec env ω c K = some (replyWithError text, K)) ∨
    ∃ terms, ∀ K, IndexExists K j →
      (∀ s, unionAt K (cellKeys ω j terms) = some s →
        exec env ω c K = some (replyWithArray ((ω.sunion.list s).map some), K)) ∧
      (unionAt K (cellKeys ω j terms) = none →
        exec env ω c K = some (replyWithError "error while fetching polygons", K)) := by
  cases hc with
  | polysearch b =>
      cases hb : parsePolygon env b with
      | none => exact Or.inl ⟨_, fun K hx => searchPolygonCommand_unparsed ω hx hb⟩
      | some polygon =>
          by_cases ht : indexPolygonForOverlapTest env (some polygon) = ∅
          · exact Or.inl ⟨_, fun K hx => searchPolygonCommand_uncovered ω hx hb ht⟩
          · exact Or.inr ⟨_, fun K hx => ⟨fun s hs => searchPolygonCommand_found ω hx hb ht hs,
              fun hs => searchPolygonCommand_wrongType ω hx hb ht hs⟩⟩
  | pointsearch b =>
      cases hb : parseLatLng env b with
      | none => exact Or.inl ⟨_, fun K hx => searchPointCommand_unparsed ω hx hb⟩
      | some point =>
          exact Or.inr ⟨_, fun K hx => ⟨fun s hs => searchPointCommand_found ω hx hb hs,
            fun hs => searchPointCommand_wrongType ω hx hb hs⟩⟩

/-- A search that answers with an error finds nothing. -/
theorem not_finds {ω : Orders} {c : Command} {text : String}
    (h : exec env ω c K = some (replyWithError text, K)) : ¬ Finds env ω c K q := by
  rintro ⟨o, K', he, hl⟩
  exact not_lists_of_error he h hl

/-- Without the index both searches answer with an error. -/
theorem not_finds_of_not_exists {ω : Orders} {c : Command} (hc : OnSearch j c)
    (hj : Accepted j) (hx : ¬ IndexExists K j) : ¬ Finds env ω c K q := by
  have hhead : c.args.head? = some j := by cases hc <;> rfl
  have hshaped : Shaped c := by cases hc <;> constructor
  have hnames : ∀ n ∈ names c, Accepted n := by cases hc <;> simp [names, hj]
  rcases index_cases K hj with hx' | hx' | hx'
  · exact absurd hx' hx
  · cases hc with
    | polysearch b => exact not_finds (searchPolygonCommand_absent ω hx')
    | pointsearch b => exact not_finds (searchPointCommand_absent ω hx')
  · obtain ⟨text, he⟩ := exec_foreign env ω hshaped hnames hhead
    exact not_finds (he K hx')

/-- The polygon is found alike. -/
theorem SameFor.finds (h : SameFor j q K K') (hj : Accepted j) {c : Command}
    (hc : OnSearch j c) (ω : Orders) : Finds env ω c K' q ↔ Finds env ω c K q := by
  by_cases hx : IndexExists K j
  · have hx' := h.indexExists hx
    rcases search_cases env hc ω with ⟨text, he⟩ | ⟨terms, hterms⟩
    · simp [not_finds (he K hx), not_finds (he K' hx')]
    · have hu := h.unionAt ω terms
      have hiff : ∀ L, IndexExists L j → (Finds env ω c L q ↔
          (Foundation.unionAt L (cellKeys ω j terms)).map (fun s => decide (q ∈ s)) =
            some true) := by
        intro L hL
        cases hs : Foundation.unionAt L (cellKeys ω j terms) with
        | none => simp [not_finds ((hterms L hL).2 hs)]
        | some s =>
            rw [Finds, exec_lists_iff ((hterms L hL).1 s hs)]
            simp
      rw [hiff K hx, hiff K' hx', hu]
  · have hx' : ¬ IndexExists K' j := fun he => hx ⟨he.accepted, h.marker ▸ he.marker⟩
    simp [not_finds_of_not_exists hc hj hx, not_finds_of_not_exists hc hj hx']

/-! ### Isolated names -/

/-- What the commands of one index name leave alone at another index name: `ISET` and
`IDEL` change no reply, and commands on one polygon change neither the body of another
polygon nor what the searches say about it. -/
structure Isolated (env : Environment) (K : Keyspace Bytes) (i j : Bytes) : Prop where
  index : i ≠ j → ∀ c ∈ [CommandName.iset, .idel], ∀ ω o K',
    exec env ω ⟨c, [i]⟩ K = some (o, K') → ∀ ω' d, d.args.head? = some j →
      replyOf env ω' d K' = replyOf env ω' d K
  polygon : ∀ p q, Accepted p → Accepted q → (i, p) ≠ (j, q) → ∀ ls os K',
    (∀ l ∈ ls, OnPolygon i p l.2) → run (step env) ls K = some (os, K') → ∀ ω,
      replyOf env ω ⟨.polyget, [j, q]⟩ K' = replyOf env ω ⟨.polyget, [j, q]⟩ K ∧
      ∀ d, OnSearch j d → (Finds env ω d K' q ↔ Finds env ω d K q)

theorem isolated_of_cString (hi : Accepted i) (hj : Accepted j)
    (h : i = j ∨ cString i ≠ cString j) (K : Keyspace Bytes) : Isolated env K i j where
  index hij c hc ω o K' he ω' d hd := by
    have hne : cString i ≠ cString j := h.resolve_left hij
    exact (local_exec env ω' j hd).result_eq_of_disjoint (local_exec env ω i rfl)
      (disjoint_region hj.notMem hi.notMem hne.symm) he
  polygon p q hp hq hpq ls os K' hls hr ω := by
    have hsep : cString i ≠ cString j ∨ cString i = cString j ∧ q ≠ p := by
      rcases h with rfl | hne
      · exact Or.inr ⟨rfl, fun he => hpq (by rw [he])⟩
      · exact Or.inl hne
    have hsame : SameFor j q K K' := sameFor_run hi hj hp hls hsep hr
    exact ⟨hsame.polyget hj hq ω, fun d hd => hsame.finds hj hd ω⟩

theorem absent_empty (hi : Accepted i) : IndexAbsent emptyKeyspace i := ⟨hi, rfl⟩

/-- Creating one index on the empty keyspace creates every other one with its C string. -/
theorem exists_alias (hi : Accepted i) (hj : Accepted j) (hcs : cString i = cString j) :
    IndexExists (withMarker emptyKeyspace i) j := by
  have hm := (absent_empty hi).withMarker.marker
  rw [createIndexMetaHashKey_eq, hcs] at hm
  exact ⟨hj, hm⟩

/-- Two accepted index names are isolated in every reachable keyspace exactly when they are
the same name or differ before their first zero byte. -/
theorem isolated_iff (env : Environment) (hi : Accepted i) (hj : Accepted j) :
    (∀ K, Reachable (step env) (fun _ => True) emptyKeyspace K → Isolated env K i j) ↔
      (i = j ∨ cString i ≠ cString j) := by
  constructor
  · intro h
    by_contra hcon
    obtain ⟨hij, hcs⟩ : i ≠ j ∧ cString i = cString j := by
      push Not at hcon
      exact hcon
    have hx := exists_alias hi hj hcs
    have heq := (h _ .start).index hij .iset (by simp) ascending _ _
      (setIndexCommand_absent (absent_empty hi)) ascending ⟨.iget, [j]⟩ rfl
    simp [replyOf, exec, getIndexCommand_exists hx, getIndexCommand_absent (absent_empty hj),
      replyWithSimpleString, replyWithNull] at heq
  · intro h K _
    exact isolated_of_cString hi hj h K

theorem isolated_iff_sample :
    Isolated sampleEnvironment (withMarker emptyKeyspace (ascii "b")) (ascii "a") (ascii "b") := by
  have hj : Accepted (ascii "b") := by decide
  have hset := setIndexCommand_absent (absent_empty hj)
  have hK : Reachable (step sampleEnvironment) (fun _ => True) emptyKeyspace
      (withMarker emptyKeyspace (ascii "b")) :=
    Reachable.start.step (l := (ascending, ⟨.iset, [ascii "b"]⟩)) trivial hset
  exact (isolated_iff sampleEnvironment (by decide) hj).mpr (Or.inr (by decide)) _ hK

/-- Creating the index whose name has a zero byte behind the `a` creates the index `a`. -/
theorem iset_creates_alias :
    Accepted (ascii "a" ++ [0, chr 'b']) ∧ Accepted (ascii "a") ∧
      ascii "a" ++ [0, chr 'b'] ≠ ascii "a" ∧
      ∃ K, run (step sampleEnvironment)
        [(ascending, ⟨.iget, [ascii "a"]⟩), (ascending, ⟨.iset, [ascii "a" ++ [0, chr 'b']]⟩),
          (ascending, ⟨.iget, [ascii "a"]⟩)] emptyKeyspace =
        some ([replyWithNull, replyWithSimpleString "OK", replyWithSimpleString "OK"], K) := by
  have hi : Accepted (ascii "a" ++ [0, chr 'b']) := by decide
  have hj : Accepted (ascii "a") := by decide
  refine ⟨hi, hj, by decide, withMarker emptyKeyspace (ascii "a" ++ [0, chr 'b']), ?_⟩
  have hget := getIndexCommand_absent (absent_empty hj)
  have hset := setIndexCommand_absent (absent_empty hi)
  have hget' := getIndexCommand_exists (exists_alias hi hj (by decide))
  exact run_cons_eq_some.mpr ⟨_, _, _, hget, run_cons_eq_some.mpr ⟨_, _, _, hset,
    run_cons_eq_some.mpr ⟨_, _, _, hget', rfl, rfl⟩, rfl⟩, rfl⟩

end RedisS2Geo.Guarantees
