import RedisS2Geo.Store.Runs

/-!
# The keyspace as a whole

The four kinds of keys stay in step over all runs, the replies are those of a map
of maps, and a command that fails leaves no trace.
-/

namespace RedisS2Geo.Guarantees
open Foundation Source Covering Store

variable {env : Environment} {K : Keyspace Bytes}

/-! ### Coherence of the keys -/

/-- The four kinds of keys of one index and one polygon agree, at every term. -/
structure Coherent (env : Environment) (K : Keyspace Bytes) (i p t : Bytes) : Prop where
  /-- Without the marker the index has no keys. -/
  unmarked : markerStatus (K (StoreKey.info i).bytes) ≠ .ok () →
    K (StoreKey.polygons i).bytes = none ∧ (∀ u, K (StoreKey.cells i u).bytes = none) ∧
      ∀ q, K (StoreKey.cellinfo i q).bytes = none
  /-- The cell info of a polygon with a body is the set of terms of that body. -/
  body : ∀ b, bodyAt K i p = some b → ∃ polygon, parsePolygon env b = some polygon ∧
    asSet (K (StoreKey.cellinfo i p).bytes) = some (indexPolygon env (some polygon)) ∧
      indexPolygon env (some polygon) ≠ ∅
  /-- A polygon without a body has no cell info. -/
  bodiless : bodyAt K i p = none → K (StoreKey.cellinfo i p).bytes = none
  /-- Cells and cell info list the same memberships. -/
  member : ∃ S T, asSet (K (StoreKey.cells i t).bytes) = some S ∧
    asSet (K (StoreKey.cellinfo i p).bytes) = some T ∧ (p ∈ S ↔ t ∈ T)

/-- Every reachable keyspace is coherent. -/
theorem coherent_of_reachable (hK : ReachableStore env K) {i : Bytes} (hi : PlainName i)
    (p t : Bytes) : Coherent env K i p t := by
  obtain ⟨A, h⟩ := hK.represents
  have hd : entityDelim ∉ cString i := hi.1.notMem
  have hcs : cString i = i := hi.cString_eq
  have hbody : bodyAt K i p = (A.polygons i).lookup p := by rw [h.bodyAt_eq hd, hcs]
  have hinfo : asSet (K (StoreKey.cellinfo i p).bytes) = some (termsOf env (A.polygons i) p) := by
    rw [h.at_key (.cellinfo i p) hi.notMem, Contents.valueAt, asSet_ofSet]
  have hcells : asSet (K (StoreKey.cells i t).bytes) =
      some ((A.polygons i).keys.filter fun q => t ∈ termsOf env (A.polygons i) q) := by
    rw [h.at_key (.cells i t) hi.notMem, Contents.valueAt, asSet_ofSet]
  constructor
  · intro hmarker
    have hA : A i = none := by
      cases hA : A i with
      | none => rfl
      | some m =>
          refine absurd ?_ hmarker
          have := (h.indexExists hi.1 (hcs.symm ▸ hA)).marker
          rwa [createIndexMetaHashKey_eq, hcs] at this
    exact ⟨h.eq_none_of_absent (k := .polygons i) hi.notMem hA,
      fun u => h.eq_none_of_absent (k := .cells i u) hi.notMem hA,
      fun q => h.eq_none_of_absent (k := .cellinfo i q) hi.notMem hA⟩
  · intro b hb
    have hl : (A.polygons i).lookup p = some b := hbody ▸ hb
    cases hA : A i with
    | none => simp [Contents.polygons_of_none hA] at hl
    | some m =>
        have hterms := (h.wellFormed.polygons hA).terms (Contents.polygons_of_some hA ▸ hl)
        obtain ⟨polygon, hparse⟩ := exists_parsed (bodyTerms_eq_empty_iff.not.mp hterms)
        rw [bodyTerms, hparse] at hterms
        refine ⟨polygon, hparse, ?_, hterms⟩
        rw [hinfo, termsOf_of_lookup hl, bodyTerms, hparse]
  · intro hb
    have hmem : p ∉ A.polygons i := Finmap.lookup_eq_none.mp (hbody ▸ hb)
    rw [h.at_key (.cellinfo i p) hi.notMem, Contents.valueAt, termsOf_of_notMem hmem,
      ofSet_empty]
  · exact ⟨_, _, hcells, hinfo, mem_filter_termsOf⟩

theorem coherent_of_reachable_triangle :
    ∃ K, bodyAt K (ascii "i") (ascii "p") = some triangleBody ∧
      ∀ t, Coherent sampleEnvironment K (ascii "i") (ascii "p") t := by
  obtain ⟨K, hK, hx, hb⟩ := exists_sample covered_triangleBody
  exact ⟨K, hb, coherent_of_reachable hK plainName_i _⟩

/-! ### The map of maps -/

/-- From the empty keyspace on, every reply is the one of the map. -/
theorem refines_map (env : Environment) {ls : List (Orders × MapCommand)}
    (hls : ∀ l ∈ ls, ∀ n ∈ l.2.names, NulFree n) :
    ∃ os K, run (mapModule env) ls emptyKeyspace = some (os, K) ∧
      List.Forall₂ Answers os (totalRun (fun l => mapStep env l.2) ls fun _ => none).1 := by
  obtain ⟨os, K, hr, ho, -⟩ := (exec_simulates env).run hls Represents.empty
  exact ⟨os, K, hr, ho⟩

/-- Creating an index, storing a polygon and reading it back. -/
def sampleCommands : List (Orders × MapCommand) :=
  [(ascending, .iset (ascii "i")), (ascending, .polyset (ascii "i") (ascii "p") holeBody),
    (ascending, .polyget (ascii "i") (ascii "p"))]

theorem refines_map_sample :
    ∃ os K, run (mapModule sampleEnvironment) sampleCommands emptyKeyspace = some (os, K) ∧
      List.Forall₂ Answers os [.ok, .integer 1, .body holeBody] :=
  refines_map sampleEnvironment (by simp [sampleCommands, MapCommand.names]; decide)

/-! ### Failures leave no trace -/

/-- The reply of a command that did nothing. -/
def Failure : Reply → Prop
  | .error _ => True
  | .null => True
  | .array items => items = []
  | .integer n => n = 0
  | _ => False

/-- The errors that a command sends after it has begun to write, and those that stem from
foreign values in the keyspace. -/
def halfwayErrors : List String :=
  ["failed to delete the index", "polygon deletion failed", "polygon cells deletion failed",
    "error while deleting polygon cells", "error while storing polygon body",
    "error while storing polygon cells", "error while fetching polygons", "not an index"]

/-- An outcome that changes nothing when it is a failure, and is no half-way error. -/
def Atomic (K : Keyspace Bytes) (r : Outcome × Keyspace Bytes) : Prop :=
  (Failure r.1.reply → r.2 = K) ∧ ∀ text ∈ halfwayErrors, r.1.reply ≠ .error text

theorem atomic_of_unchanged {o : Outcome}
    (h : ∀ text, o.reply = .error text → text ∉ halfwayErrors) : Atomic K (o, K) :=
  ⟨fun _ => rfl, fun text ht he => h text he ht⟩

theorem atomic_error {text : String} (h : text ∉ halfwayErrors) :
    Atomic K (replyWithError text, K) :=
  atomic_of_unchanged fun text' he => by
    obtain rfl : text = text' := by simpa [replyWithError] using he
    exact h

theorem atomic_unchanged {o : Outcome} (h : ∀ text, o.reply ≠ .error text) : Atomic K (o, K) :=
  atomic_of_unchanged fun text he => absurd he (h text)

/-- The acknowledgement of a write is no failure. -/
theorem atomic_one {K' : Keyspace Bytes} : Atomic K (replyWithLongLong 1, K') :=
  ⟨fun h => absurd h (by simp [Failure, replyWithLongLong]), fun _ _ => by
    simp [replyWithLongLong]⟩

theorem atomic_ok {K' : Keyspace Bytes} : Atomic K (replyWithSimpleString "OK", K') :=
  ⟨fun h => absurd h (by simp [Failure, replyWithSimpleString]), fun _ _ => by
    simp [replyWithSimpleString]⟩

/-- A command on an index that does not exist. -/
theorem atomic_of_absent (ω : Orders) {c : Command} (hs : Shaped c)
    (hname : ∀ n ∈ names c, Accepted n) {i : Bytes} (hi : c.args.head? = some i)
    (hx : IndexAbsent K i) : ∃ r, exec env ω c K = some r ∧ Atomic K r := by
  cases hs <;> obtain rfl := Option.some.inj hi
  case iset => exact ⟨_, setIndexCommand_absent hx, atomic_ok⟩
  case iget => exact ⟨_, getIndexCommand_absent hx, atomic_unchanged (by simp [replyWithNull])⟩
  case idel =>
    exact ⟨_, deleteIndexCommand_absent ω hx, atomic_unchanged (by simp [replyWithLongLong])⟩
  case polyset p b =>
    exact ⟨_, setPolygonCommand_absent ω hx (hname p (by simp [names])), atomic_error (by decide)⟩
  case polyget p =>
    exact ⟨_, getPolygonCommand_absent hx (hname p (by simp [names])),
      atomic_unchanged (by simp [replyWithNull])⟩
  case polymget p rest =>
    exact ⟨_, getMultiplePolygonsCommand_absent hx (List.cons_ne_nil p rest) fun q hq =>
      hname q (List.mem_cons_of_mem _ hq), atomic_unchanged (by simp [replyWithArray])⟩
  case polydel p =>
    exact ⟨_, deletePolygonCommand_absent ω hx (hname p (by simp [names])),
      atomic_unchanged (by simp [replyWithLongLong])⟩
  case polylist =>
    exact ⟨_, listPolygonsCommand_absent ω hx, atomic_unchanged (by simp [replyWithArray])⟩
  case polysearch b => exact ⟨_, searchPolygonCommand_absent ω hx, atomic_error (by decide)⟩
  case pointsearch b => exact ⟨_, searchPointCommand_absent ω hx, atomic_error (by decide)⟩

/-- A command on an index that exists. Body hash and cell info agree, so that neither
loop of a deletion meets a polygon without cells. -/
theorem atomic_of_exists {A : Contents} (h : Represents env K A) (ω : Orders) {c : Command}
    (hs : Shaped c) (hname : ∀ n ∈ names c, Accepted n) {i : Bytes}
    (hi : c.args.head? = some i) {m : Polygons} (hA : A (cString i) = some m)
    (hacc : Accepted i) : ∃ r, exec env ω c K = some r ∧ Atomic K r := by
  have hx : IndexExists K i := h.indexExists hacc hA
  have hhash := h.asHash_polygons hacc.notMem
  cases hs <;> obtain rfl := Option.some.inj hi
  case iset => exact ⟨_, setIndexCommand_exists hx, atomic_error (by decide)⟩
  case iget =>
    exact ⟨_, getIndexCommand_exists hx, atomic_ok⟩
  case idel =>
    obtain ⟨K', he, -⟩ := h.deleteIndexCommand_exists ω hacc hA
    exact ⟨_, he, atomic_one⟩
  case polyset p b =>
    have hp : Accepted p := hname p (by simp [names])
    by_cases hb : bodyTerms env b = ∅
    · obtain ⟨text, ht, he⟩ := setPolygonCommand_refused ω hp hb
      refine ⟨_, he K hx, atomic_error ?_⟩
      rcases (by simpa using ht : text = _ ∨ text = _) with rfl | rfl <;> decide
    · obtain ⟨K', he⟩ := h.setPolygonCommand_replies ω hacc hA hp hb
      exact ⟨_, he, atomic_one⟩
  case polyget i p =>
    refine ⟨_, getPolygonCommand_exists hx (hname p (by simp [names])), atomic_unchanged ?_⟩
    cases bodyAt K i p <;> simp [replyWithNull, replyWithString]
  case polymget p rest =>
    exact ⟨_, getMultiplePolygonsCommand_exists hx (List.cons_ne_nil p rest) (fun q hq =>
      hname q (List.mem_cons_of_mem _ hq)) hhash, atomic_unchanged (by simp [replyWithArray])⟩
  case polydel p =>
    have hp : Accepted p := hname p (by simp [names])
    by_cases hmem : cString p ∈ m
    · obtain ⟨K', he⟩ := h.deletePolygonCommand_alias ω hacc hA hp hmem
      exact ⟨_, he, atomic_one⟩
    · exact ⟨_, h.deletePolygonCommand_notMem ω hacc hA hp hmem,
        atomic_unchanged (by simp [replyWithLongLong])⟩
  case polylist =>
    exact ⟨_, listPolygonsCommand_exists ω hx hhash, atomic_unchanged (by simp [replyWithArray])⟩
  case polysearch b =>
    obtain ⟨o, he, htext⟩ := h.searchPolygonCommand_total ω b hacc
    refine ⟨_, he, atomic_of_unchanged fun text ht => ?_⟩
    rcases (by simpa using htext text ht : text = _ ∨ text = _ ∨ text = _) with rfl | rfl | rfl <;>
      decide
  case pointsearch b =>
    obtain ⟨o, he, htext⟩ := h.searchPointCommand_total ω b hacc
    refine ⟨_, he, atomic_of_unchanged fun text ht => ?_⟩
    rcases (by simpa using htext text ht : text = _ ∨ text = _) with rfl | rfl <;> decide

/-- On a reachable keyspace every command is answered. A failure changes nothing, and no
error is sent from the middle of a command. -/
theorem commands_atomic (hK : ReachableStore env K) (ω : Orders) (c : Command) :
    ∃ r, exec env ω c K = some r ∧ Atomic K r := by
  obtain ⟨A, h⟩ := hK.represents
  by_cases hs : Shaped c
  · by_cases hr : ∃ n ∈ names c, ¬ Accepted n
    · obtain ⟨text, he, htext⟩ := exec_refused env K ω hs hr
      refine ⟨_, he, atomic_error ?_⟩
      rcases htext with rfl | rfl <;> decide
    · push Not at hr
      obtain ⟨i, hi, hmem⟩ : ∃ i, c.args.head? = some i ∧ i ∈ names c := by
        cases hs <;> exact ⟨_, rfl, by simp [names]⟩
      have hacc : Accepted i := hr i hmem
      cases hA : A (cString i) with
      | none => exact atomic_of_absent ω hs hr hi (h.indexAbsent hacc hA)
      | some m => exact atomic_of_exists h ω hs hr hi hA hacc
  · exact ⟨_, exec_wrongArity ω hs, atomic_of_unchanged fun text ht => by
      obtain rfl : "wrong number of arguments" = text := by simpa [wrongArity] using ht
      decide⟩

theorem commands_atomic_sample :
    ∃ K, bodyAt K (ascii "i") (ascii "p") = some holeBody ∧
      ∃ r, exec sampleEnvironment ascending ⟨.polydel, [ascii "i", ascii "q"]⟩ K = some r ∧
        Atomic K r := by
  obtain ⟨K, hK, hx, hb⟩ := exists_sample covered_holeBody
  exact ⟨K, hb, commands_atomic hK ascending ⟨.polydel, [ascii "i", ascii "q"]⟩⟩

end RedisS2Geo.Guarantees
