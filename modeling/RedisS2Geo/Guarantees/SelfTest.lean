import RedisS2Geo.Guarantees.Dumps
import RedisS2Geo.Guarantees.Picture

/-!
# What the self test tests

The self test of a DEBUG build uses the database of the server. It gives the same verdict
on every database that it accepts, it depends on nothing but the coverings of its bodies
and the leaves of its points, and when it passes nothing is left of it.
-/

namespace RedisS2Geo.Guarantees
open Foundation Source Covering Store Set

variable {env : Environment} {orders : Nat → Orders} {keys : TestKeys} {K : Keyspace Bytes}

/-- The keys that the pattern of the test stands for: those that start with what is before
its star. -/
def TestKey (key : Bytes) : Prop := kTestIndexPattern.dropLast <+: key

/-- `KEYS` lists nothing exactly when no key of the pattern exists. -/
def ListsTestKeys (keys : TestKeys) : Prop :=
  ∀ K, keys K = [] ↔ ∀ key, TestKey key → K key = none

/-- What the test expects of the library: all polygons are covered, and the points and the
queries are where the picture of the test data has them. -/
structure TestGeometry (env : Environment) : Prop where
  covered : ∀ idx, bodyCovering env (kPolygonBody idx) ≠ []
  circle : PointMeets env .circle ∅
  triangle : PointMeets env .triangle {.red}
  square : PointMeets env .square {.red, .yellow}
  red : QueryMeets env (kPolygonBody .red) {.red, .yellow, .green}
  green : QueryMeets env (kPolygonBody .green) {.green, .red}
  blue : QueryMeets env (kPolygonBody .blue) {.blue}
  yellow : QueryMeets env (kPolygonBody .yellow) {.yellow, .red}
  surrounding : QueryMeets env surroundingBody {.yellow, .red, .blue, .green}

/-! ### The calls on a database -/

theorem eq_of_eqOn {K' : Keyspace Bytes} {R : Set Bytes} (hin : EqOn K' K R)
    (hout : EqOn K' K Rᶜ) : K' = K := by
  rw [← eqOn_univ, ← union_compl_self R]
  exact hin.union hout

theorem validateTestCondition_eq (keys : TestKeys) (message : String) (K : Keyspace Bytes) :
    validateTestCondition keys message K =
      some (if keys K = [] then .ok () else .error message, K) := by
  have hcheck : (do
      assertRedisTypeEqual message .array (some (.array ((keys K).map some)))
      assertIntEqual message 0 (intLength (.array ((keys K).map some)))).run =
        some (if keys K = [] then .ok () else .error message) := by
    have htype : (assertRedisTypeEqual message .array (some (.array ((keys K).map some)))).run =
      some (.ok ()) := rfl
    rw [run_bind_ok htype, run_assertIntEqual]
    by_cases hK : keys K = []
    · simp [hK, intLength, callReplyLength]
    · simp [hK, intLength, callReplyLength]
  simp only [validateTestCondition, bind_apply, redisModuleCall_apply, Option.bind_some, hcheck,
    Option.map_some]

/-- The calls with their orders are the calls of the script. -/
theorem map_mapIdx_calls (orders : Nat → Orders) (script : List TestCall) :
    (script.mapIdx fun n call => ((orders n, call.1), call.2)).map (Prod.map Prod.snd id) =
      script := by
  apply List.ext_getElem?
  intro n
  simp [List.getElem?_mapIdx, Function.comp_def]

/-- Every call of a script is on the index of the test, and its names are good. -/
def OnTestIndex (script : List TestCall) : Prop :=
  ∀ call ∈ script, call.1.args.head? = some kTestIndexName ∧ ∀ n ∈ names call.1, PlainName n

theorem local_onTestIndex (ω : Orders) {c : Command} (hi : c.args.head? = some kTestIndexName) :
    Local (region kTestIndexName) (exec env ω c) := by
  have hlocal := local_exec env ω kTestIndexName hi
  rwa [plainName_testIndex.cString_eq] at hlocal

theorem exists_mem_of_mem_mapIdx {script : List TestCall}
    {call : (Orders × Command) × (Outcome → Checked String)}
    (h : call ∈ script.mapIdx fun n call => ((orders n, call.1), call.2)) :
    ∃ other ∈ script, call.1.2 = other.1 := by
  obtain ⟨n, hn, rfl⟩ := List.mem_iff_getElem.mp h
  rw [List.getElem_mapIdx]
  exact ⟨_, List.getElem_mem (by simpa using hn), rfl⟩

theorem local_runCalls {script : List TestCall} (h : OnTestIndex script) :
    Local (region kTestIndexName) (runCalls env orders script) := by
  apply Local.runScript
  intro call hcall
  obtain ⟨other, hother, hc⟩ := exists_mem_of_mem_mapIdx hcall
  apply local_onTestIndex
  rw [hc]
  exact (h other hother).1

theorem reachable_runCalls {script : List TestCall} (h : OnTestIndex script)
    {r : Except String Unit} (hrun : runCalls env orders script emptyKeyspace = some (r, K)) :
    ReachableStore env K := by
  refine Reachable.runScript Reachable.start (fun call hcall => ?_) hrun
  obtain ⟨other, hother, hc⟩ := exists_mem_of_mem_mapIdx hcall
  rw [hc]
  exact fun n hn => ((h other hother).2 n hn).2

theorem testKey_of_mem_region {key : Bytes} (h : key ∈ region kTestIndexName) : TestKey key := by
  obtain ⟨k, hk, rfl⟩ := h
  have hpattern : kTestIndexPattern.dropLast = kTestIndexName ++ [entityDelim] := by decide
  rw [TestKey, hpattern, StoreKey.bytes, hk]
  exact ⟨k.tail, by simp⟩

/-- A database without keys of the test looks empty to it. -/
theorem eqOn_empty (h : ∀ key, TestKey key → K key = none) :
    EqOn emptyKeyspace K (region kTestIndexName) :=
  fun key hkey => (h key (testKey_of_mem_region hkey)).symm

/-- Whatever the calls have left of their index, deleting it brings the database back. -/
theorem idel_restores {script : List TestCall} (h : OnTestIndex script)
    (hK : ∀ key, TestKey key → K key = none) {r : Except String Unit} {K' : Keyspace Bytes}
    (hrun : runCalls env orders script K = some (r, K')) (ω : Orders) :
    ∃ o, exec env ω ⟨.idel, [kTestIndexName]⟩ K' = some (o, K) := by
  have hlocal : Local (region kTestIndexName) (runCalls env orders script) := local_runCalls h
  have hidel : Local (region kTestIndexName) (exec env ω ⟨.idel, [kTestIndexName]⟩) :=
    local_onTestIndex ω rfl
  have hempty : Represents env emptyKeyspace fun _ => none := Represents.empty
  -- the same calls on the empty database lead to a reachable one
  obtain ⟨K₁, hrun₁, hsame⟩ := hlocal.depends (eqOn_empty hK).symm hrun
  obtain ⟨A, h₁⟩ := (reachable_runCalls h hrun₁).represents
  obtain ⟨o, K₂, he₂, -, h₂⟩ :=
    h₁.refines_effect ω (.idel kTestIndexName) (plainName_testNames []) rfl
  have hnone : (spatialEffect env ⟨.idel, [kTestIndexName]⟩ A).2 kTestIndexName = none := by
    cases hA : A kTestIndexName <;> simp [spatialEffect, hA]
  obtain ⟨K'', he, hsame'⟩ := hidel.depends hsame.symm he₂
  have hgone : EqOn K₂ emptyKeyspace (region kTestIndexName) :=
    eqOn_region h₂ hempty plainName_testIndex.notMem hnone
  have hin : EqOn K'' K (region kTestIndexName) := (hsame'.symm.trans hgone).trans (eqOn_empty hK)
  have hout : EqOn K'' K (region kTestIndexName)ᶜ := (hidel.frame he).trans (hlocal.frame hrun)
  have hback : K'' = K := eq_of_eqOn hin hout
  exact ⟨o, hback ▸ he⟩

/-- A decided script gives on every database without keys of the test the verdict that it
gives on the empty one. -/
theorem runCalls_of_tests (orders : Nat → Orders) {script : List TestCall}
    {m : Option Polygons} {p : Prop}
    (h : Tests env script none p m) (hindex : OnTestIndex script)
    (hK : ∀ key, TestKey key → K key = none) :
    (p → ∃ K₁ K', runCalls env orders script K = some (.ok (), K') ∧
      Represents env K₁ (onlyTestIndex m) ∧ EqOn K₁ K' (region kTestIndexName) ∧
        EqOn K' K (region kTestIndexName)ᶜ) ∧
      (¬ p → ∃ e K', runCalls env orders script K = some (.error e, K') ∧
        EqOn K' K (region kTestIndexName)ᶜ) := by
  have hlocal : Local (region kTestIndexName) (runCalls env orders script) :=
    local_runCalls hindex
  have hempty : Represents env emptyKeyspace (onlyTestIndex none) := by
    rw [onlyTestIndex_none]
    exact Represents.empty
  obtain ⟨hpass, hfail⟩ := h _ (map_mapIdx_calls orders script) emptyKeyspace hempty
  constructor
  · intro hp
    obtain ⟨K₁, hrun, hrepresents⟩ := hpass hp
    obtain ⟨K', hrun', hsame⟩ := hlocal.depends (eqOn_empty hK) hrun
    exact ⟨K₁, K', hrun', hrepresents, hsame, hlocal.frame hrun'⟩
  · intro hp
    obtain ⟨e, K₁, hrun⟩ := hfail hp
    obtain ⟨K', hrun', -⟩ := hlocal.depends (eqOn_empty hK) hrun
    exact ⟨e, K', hrun', hlocal.frame hrun'⟩

theorem exists_listsTestKeys : ∃ keys, ListsTestKeys keys := by
  classical
  refine ⟨fun K => if h : ∃ key, TestKey key ∧ K key ≠ none then [h.choose] else [], fun K => ?_⟩
  by_cases h : ∃ key, TestKey key ∧ K key ≠ none
  · refine iff_of_false (by simp only [dif_pos h, ne_eq, List.cons_ne_nil, not_false_eq_true]) ?_
    obtain ⟨key, hkey, hsome⟩ := h
    exact fun hnone => hsome (hnone key hkey)
  · refine iff_of_true (dif_neg h) fun key hkey => ?_
    by_contra hsome
    exact h ⟨key, hkey, hsome⟩

theorem testGeometry_picture : TestGeometry pictureEnvironment where
  covered := covered_picture
  circle := pointMeets_picture rfl (by decide)
  triangle := pointMeets_picture rfl (by decide)
  square := pointMeets_picture rfl (by decide)
  red := queryMeets_picture (bodyCovering_picture .red) (by decide) (by decide)
  green := queryMeets_picture (bodyCovering_picture .green) (by decide) (by decide)
  blue := queryMeets_picture (bodyCovering_picture .blue) (by decide) (by decide)
  yellow := queryMeets_picture (bodyCovering_picture .yellow) (by decide) (by decide)
  surrounding := queryMeets_picture bodyCovering_surrounding (by decide) (by decide)

/-! ### The self test -/

theorem tests_selfTest : Tests env selfTest none (TestGeometry env) none := by
  have hindex : Tests env testIndex none True none := tests_testIndex
  have hall := ((hindex.append tests_testPolygons).append tests_testPointSearch).append
    tests_testPolygonSearch
  apply hall.congr
  constructor
  · rintro ⟨⟨⟨-, hcovered⟩, -, hcircle, htriangle, hsquare⟩, -, hred, hgreen, hblue, hyellow,
      hsurrounding⟩
    exact ⟨hcovered, hcircle, htriangle, hsquare, hred, hgreen, hblue, hyellow, hsurrounding⟩
  · intro h
    exact ⟨⟨⟨trivial, h.covered⟩, h.covered, h.circle, h.triangle, h.square⟩, h.covered, h.red,
      h.green, h.blue, h.yellow, h.surrounding⟩

theorem onTestIndex_selfTest : OnTestIndex selfTest := by
  simp only [OnTestIndex, selfTest, testIndex, testPolygons, testPointSearch, testPolygonSearch,
    setUpPolygons, createTestIndex, deleteTestIndex, testCall, List.forall_mem_append,
    List.forall_mem_cons, List.forall_mem_map]
  simp [names, plainName_testIndex, plainName_polygon, testPolygonList]

/-- On a database with keys of the test the self test is refused and changes nothing. On any
other one it replies OK exactly when the library places the test data as expected, and has
then left the database as it was. Otherwise it has changed keys of the test only, and
deleting the index of the test brings the database back. -/
theorem selfTest_exact (env : Environment) (orders : Nat → Orders) (hkeys : ListsTestKeys keys)
    (K : Keyspace Bytes) :
    ((∃ key, TestKey key ∧ K key ≠ none) → testCommand env orders keys K =
        some (replyWithError "could not start the test: stale data detected", K)) ∧
      ((∀ key, TestKey key → K key = none) →
        (TestGeometry env → testCommand env orders keys K = some (replyWithCString "OK", K)) ∧
          (¬ TestGeometry env → ∃ e K', testCommand env orders keys K =
            some (replyWithError e, K') ∧ (∀ key, ¬ TestKey key → K' key = K key) ∧
              ∀ ω, ∃ o, exec env ω ⟨.idel, [kTestIndexName]⟩ K' = some (o, K))) := by
  constructor
  · rintro ⟨key, hkey, hsome⟩
    have hstale : keys K ≠ [] := fun hnil => hsome ((hkeys K).mp hnil key hkey)
    simp [testCommand, validateTestCondition_eq, hstale]
  · intro hK
    have hfresh : keys K = [] := (hkeys K).mpr hK
    have htests : Tests env selfTest none (TestGeometry env) none := tests_selfTest
    obtain ⟨hpass, hfail⟩ := runCalls_of_tests orders htests onTestIndex_selfTest hK
    constructor
    · intro hgeometry
      obtain ⟨K₁, K', hrun, hrepresents, hin, hout⟩ := hpass hgeometry
      rw [onlyTestIndex_none] at hrepresents
      have hempty : K₁ = emptyKeyspace := hrepresents.unique Represents.empty
      have hsame : K' = K := eq_of_eqOn (hin.symm.trans (hempty ▸ eqOn_empty hK)) hout
      subst hsame
      simp [testCommand, validateTestCondition_eq, hfresh, hrun]
    · intro hgeometry
      obtain ⟨e, K', hrun, hout⟩ := hfail hgeometry
      refine ⟨e, K', ?_, fun key hkey => hout fun hmem => hkey (testKey_of_mem_region hmem),
        idel_restores onTestIndex_selfTest hK hrun⟩
      simp [testCommand, validateTestCondition_eq, hfresh, hrun]

theorem selfTest_exact_picture : ∃ keys, ListsTestKeys keys ∧
    testCommand pictureEnvironment (fun _ => ascending) keys emptyKeyspace =
      some (replyWithCString "OK", emptyKeyspace) := by
  obtain ⟨keys, hkeys⟩ := exists_listsTestKeys
  obtain ⟨-, h⟩ := selfTest_exact pictureEnvironment (fun _ => ascending) hkeys emptyKeyspace
  exact ⟨keys, hkeys, (h fun _ _ => rfl).1 testGeometry_picture⟩

/-! ### Populating the database -/

theorem onTestIndex_populate : OnTestIndex (createTestIndex :: setUpPolygons) := by
  simp only [OnTestIndex, setUpPolygons, createTestIndex, testCall, List.forall_mem_cons,
    List.forall_mem_map]
  simp [names, plainName_testIndex, plainName_polygon]

/-- Setting up a polygon, successful or not, leaves the index there. -/
theorem represents_polyset {m : Polygons} (h : Represents env K (onlyTestIndex (some m)))
    {ω : Orders} {idx : TestPolygon} {o : Outcome} {K' : Keyspace Bytes}
    (he : exec env ω ⟨.polyset, [kTestIndexName, kPolygonName idx, kPolygonBody idx]⟩ K =
      some (o, K')) : ∃ m', Represents env K' (onlyTestIndex (some m')) := by
  obtain ⟨o', K'', he', -, h'⟩ :=
    h.refines_effect ω (.polyset _ _ _) (plainName_testNames [idx]) rfl
  obtain ⟨-, rfl⟩ := Prod.mk.inj (Option.some.inj (he'.symm.trans he))
  simp only [spatialEffect, onlyTestIndex_self, accepting] at h'
  split_ifs at h'
  · exact ⟨m, h'⟩
  · exact ⟨m, h'⟩
  · rw [update_onlyTestIndex] at h'
    exact ⟨_, h'⟩

/-- However far populating an empty database gets, the index is there. -/
theorem indexExists_of_populate {r : Except String Unit}
    (hrun : runCalls env orders (createTestIndex :: setUpPolygons) emptyKeyspace = some (r, K)) :
    IndexExists K kTestIndexName := by
  have hempty : Represents env emptyKeyspace (onlyTestIndex none) := by
    rw [onlyTestIndex_none]
    exact Represents.empty
  obtain ⟨hcreate, -⟩ := tests_create [((orders 0, createTestIndex.1), createTestIndex.2)] rfl
    emptyKeyspace hempty
  obtain ⟨K₀, hfirst, h₀⟩ := hcreate trivial
  rw [runCalls, List.mapIdx_cons, ← List.singleton_append, runScript_append_of_ok hfirst] at hrun
  have hreach : Reachable (step env) (fun l => ∃ idx, l.2 =
      ⟨.polyset, [kTestIndexName, kPolygonName idx, kPolygonBody idx]⟩) K₀ K := by
    refine Reachable.runScript Reachable.start (fun call hcall => ?_) hrun
    obtain ⟨other, hother, hc⟩ := exists_mem_of_mem_mapIdx hcall
    obtain ⟨idx, -, rfl⟩ := List.mem_map.mp hother
    exact ⟨idx, hc⟩
  obtain ⟨m, h⟩ := hreach.invariant (fun K => ∃ m, Represents env K (onlyTestIndex (some m)))
    ⟨∅, h₀⟩ (by
      rintro ⟨ω, c⟩ K o K' ⟨idx, rfl⟩ ⟨m, h⟩ he
      exact represents_polyset h he)
  exact h.indexExists plainName_testIndex.1 (plainName_testIndex.cString_eq.symm ▸
    onlyTestIndex_self (some m))

/-- On a database without keys of the test, populating replies OK exactly when all polygons
are covered. Whatever it replied, its index is in the way of the self test and of a second
call, which change nothing, and deleting this index brings the database back. -/
theorem populate_exact (env : Environment) (orders : Nat → Orders) (hkeys : ListsTestKeys keys)
    (hK : ∀ key, TestKey key → K key = none) :
    ∃ o K', populateCommand env orders K = some (o, K') ∧
      (o = replyWithCString "OK" ↔ ∀ idx, bodyCovering env (kPolygonBody idx) ≠ []) ∧
      (∀ orders',
        testCommand env orders' keys K' =
          some (replyWithError "could not start the test: stale data detected", K') ∧
        populateCommand env orders' K' =
          some (replyWithError "could not create the index", K')) ∧
      ∀ ω, ∃ o', exec env ω ⟨.idel, [kTestIndexName]⟩ K' = some (o', K) := by
  have htests : Tests env (createTestIndex :: setUpPolygons) none
      (∀ idx, bodyCovering env (kPolygonBody idx) ≠ []) (some testContents) :=
    (tests_create.append tests_setUp).congr (by simp)
  obtain ⟨hpass, hfail⟩ := runCalls_of_tests orders htests onTestIndex_populate hK
  -- what the calls reply, and where they end
  obtain ⟨r, K', hrun, hr⟩ : ∃ r K', runCalls env orders (createTestIndex :: setUpPolygons) K =
      some (r, K') ∧ (r = .ok () ↔ ∀ idx, bodyCovering env (kPolygonBody idx) ≠ []) := by
    by_cases hcovered : ∀ idx, bodyCovering env (kPolygonBody idx) ≠ []
    · obtain ⟨-, K', hrun, -⟩ := hpass hcovered
      exact ⟨_, K', hrun, iff_of_true rfl hcovered⟩
    · obtain ⟨e, K', hrun, -⟩ := hfail hcovered
      exact ⟨_, K', hrun, iff_of_false (by simp) hcovered⟩
  have hmarker : createIndexMetaHashKey kTestIndexName ∈ region kTestIndexName := by
    rw [createIndexMetaHashKey_eq, plainName_testIndex.cString_eq]
    exact bytes_mem_region (.info kTestIndexName)
  have hexists : IndexExists K' kTestIndexName := by
    have hlocal : Local (region kTestIndexName)
        (runCalls env orders (createTestIndex :: setUpPolygons)) :=
      local_runCalls onTestIndex_populate
    obtain ⟨K₁, hrun₁, hsame⟩ := hlocal.depends (eqOn_empty hK).symm hrun
    have h₁ := indexExists_of_populate hrun₁
    refine ⟨h₁.accepted, ?_⟩
    rw [hsame hmarker]
    exact h₁.marker
  have hstale : keys K' ≠ [] := by
    intro hnil
    have hnone := (hkeys K').mp hnil _ (testKey_of_mem_region hmarker)
    have hstatus := hexists.marker
    rw [hnone] at hstatus
    cases hstatus
  have hanswer : populateCommand env orders K = some (r.casesOn replyWithError
      fun _ => replyWithCString "OK", K') := by
    cases r <;> simp [populateCommand, hrun]
  refine ⟨_, K', hanswer, ?_, ?_, idel_restores onTestIndex_populate hK hrun⟩
  · rw [← hr]
    cases r <;> simp [replyWithError, replyWithCString]
  · intro orders'
    constructor
    · simp [testCommand, validateTestCondition_eq, hstale]
    · have hset : exec env (orders' 0) ⟨.iset, [kTestIndexName]⟩ K' =
        some (replyWithError "index already exists", K') := setIndexCommand_exists hexists
      have hcalls : runCalls env orders' (createTestIndex :: setUpPolygons) K' =
          some (.error "could not create the index", K') := by
        rw [runCalls, List.mapIdx_cons]
        exact runScript_fail hset rfl
      simp [populateCommand, hcalls]

theorem populate_exact_picture : ∃ keys K', ListsTestKeys keys ∧
    populateCommand pictureEnvironment (fun _ => ascending) emptyKeyspace =
      some (replyWithCString "OK", K') ∧
    ∀ ω, ∃ o, exec pictureEnvironment ω ⟨.idel, [kTestIndexName]⟩ K' =
      some (o, emptyKeyspace) := by
  obtain ⟨keys, hkeys⟩ := exists_listsTestKeys
  obtain ⟨o, K', hrun, ho, -, hback⟩ :=
    populate_exact pictureEnvironment (fun _ => ascending) hkeys fun _ _ => rfl
  exact ⟨keys, K', hkeys, ho.mpr testGeometry_picture.covered ▸ hrun, hback⟩

end RedisS2Geo.Guarantees
