import RedisS2Geo.Source.RedisTest
import RedisS2Geo.Store.SpatialIndex

/-!
# The calls of the self test

Which calls of the self test pass is read off the spatial index: what is said of the
index and of its bodies always holds, what is said of a search depends on the coverings.
-/

namespace RedisS2Geo.Store
open Foundation Source Covering

/-! ### Assertions -/

section Assertions
variable {α β : Type} {m : ExceptT String Option α} {f : α → ExceptT String Option β}

theorem run_bind_ok {a : α} (h : m.run = some (.ok a)) : (m >>= f).run = (f a).run := by
  rw [ExceptT.run_bind, h]
  rfl

theorem run_bind_error {e : String} (h : m.run = some (.error e)) :
    (m >>= f).run = some (.error e) := by
  rw [ExceptT.run_bind, h]
  rfl

theorem run_assertIntEqual (msg : String) (expected found : Int) :
    (assertIntEqual msg expected found).run =
      if found = expected then some (.ok ()) else some (.error msg) := by
  simp only [assertIntEqual, ne_eq, ite_not]
  split_ifs <;> rfl

theorem run_assertSetEqual (msg : String) (expected found : Finset Bytes) :
    (assertSetEqual msg expected found).run =
      if found = expected then some (.ok ()) else some (.error msg) := by
  simp only [assertSetEqual, ne_eq, ite_not]
  split_ifs <;> rfl

theorem strncmpEq_self {s : Bytes} (h : NulFree s) : strncmpEq s s = true := by
  rw [strncmpEq, if_neg h, cString_eq_self h]
  exact List.isPrefixOf_iff_prefix.mpr (List.prefix_refl s)

theorem mapM_range {l : List α} {f : Nat → Option α} (h : ∀ i, i < l.length → f i = l[i]?) :
    (List.range l.length).mapM f = some l := by
  induction l generalizing f with
  | nil => rfl
  | cons a l ih =>
      have hhead : f 0 = some a := by simpa using h 0 (by simp)
      have htail : (List.range l.length).mapM (f ∘ Nat.succ) = some l :=
        ih fun i hi => by simpa using h (i + 1) (by simpa using hi)
      rw [List.length_cons, List.range_succ_eq_map, List.mapM_cons, hhead, List.mapM_map]
      rw [htail]
      rfl

theorem redisArrayToSet_array (l : List Bytes) :
    (redisArrayToSet (.array (l.map some))).run = some (.ok l.toFinset) := by
  have helements : (List.range l.length).mapM (fun i =>
      (callReplyArrayElement (.array (l.map some)) i).bind callReplyStringPtr) = some l := by
    apply mapM_range
    intro i hi
    simp [callReplyArrayElement, hi, callReplyStringPtr]
  simp [redisArrayToSet, callReplyLength, helements]

/-- Assertions on a reply that pass for the listings of one set and for nothing else. -/
structure Expects (assertions : CallReply Bytes → ExceptT String Option Unit)
    (expected : Finset Bytes) : Prop where
  listing : ∀ l : List Bytes, l.Nodup → l.toFinset = expected →
    (assertions (.array (l.map some))).run = some (.ok ())
  other : ∀ l : List Bytes, l.Nodup → l.toFinset ≠ expected →
    ∃ e, (assertions (.array (l.map some))).run = some (.error e)
  error : ∀ text, ∃ e, (assertions (.error text)).run = some (.error e)

theorem expects_none (performed wrong : String) :
    Expects (fun reply => do
      assertRedisTypeEqual performed .array reply
      assertIntEqual wrong 0 (intLength reply)) ∅ := by
  have hrun : ∀ l : List Bytes, (do
      assertRedisTypeEqual performed .array (some (.array (l.map some)))
      assertIntEqual wrong 0 (intLength (.array (l.map some)))).run =
        if l.length = 0 then some (.ok ()) else some (.error wrong) := by
    intro l
    have htype : (assertRedisTypeEqual performed .array (some (.array (l.map some)))).run =
      some (.ok ()) := rfl
    rw [run_bind_ok htype, run_assertIntEqual]
    simp [intLength, callReplyLength]
  refine ⟨?_, ?_, ?_⟩
  · intro l _ hl
    obtain rfl := List.toFinset_eq_empty_iff l |>.mp hl
    rfl
  · intro l _ hl
    have hne : l.length ≠ 0 := by
      intro h
      rw [List.length_eq_zero_iff.mp h] at hl
      exact hl rfl
    exact ⟨wrong, (hrun l).trans (if_neg hne)⟩
  · intro text
    exact ⟨performed, rfl⟩

theorem expects_assertFound (typeMsg countMsg setMsg : String) {n : Nat}
    {expected : Finset Bytes} (hn : expected.card = n) :
    Expects (assertFound typeMsg countMsg setMsg n expected) expected := by
  have htype : ∀ l : List Bytes,
      (assertRedisTypeEqual typeMsg .array (some (.array (l.map some)))).run = some (.ok ()) :=
    fun _ => rfl
  have hlength : ∀ l : List Bytes,
      (assertIntEqual countMsg n (intLength (.array (l.map some)))).run =
        if l.length = n then some (.ok ()) else some (.error countMsg) := by
    intro l
    rw [run_assertIntEqual]
    simp only [intLength, callReplyLength, List.length_map, Int.natCast_inj]
  have hrun : ∀ l : List Bytes, l.length = n →
      (assertFound typeMsg countMsg setMsg n expected (.array (l.map some))).run =
        if l.toFinset = expected then some (.ok ()) else some (.error setMsg) := by
    intro l hl
    rw [assertFound, run_bind_ok (htype l), run_bind_ok ((hlength l).trans (if_pos hl)),
      run_bind_ok (redisArrayToSet_array l), run_assertSetEqual]
  refine ⟨?_, ?_, ?_⟩
  · intro l hnodup hl
    have hlen : l.length = n := by rw [← List.toFinset_card_of_nodup hnodup, hl, hn]
    exact (hrun l hlen).trans (if_pos hl)
  · intro l _ hl
    by_cases hlen : l.length = n
    · exact ⟨setMsg, (hrun l hlen).trans (if_neg hl)⟩
    · refine ⟨countMsg, ?_⟩
      rw [assertFound, run_bind_ok (htype l),
        run_bind_error ((hlength l).trans (if_neg hlen))]
  · intro text
    exact ⟨typeMsg, rfl⟩

end Assertions

/-! ### The data of the test -/

theorem plainName_testIndex : PlainName kTestIndexName := ⟨by decide, by decide⟩

theorem plainName_polygon (idx : TestPolygon) : PlainName (kPolygonName idx) := by
  cases idx <;> exact ⟨by decide, by decide⟩

theorem kPolygonName_injective : Function.Injective kPolygonName := by
  intro a b h
  cases a <;> cases b <;> first
    | rfl
    | exact absurd h (by decide)

/-- The assertions on a listing of polygons of the test. -/
theorem expects_polygons {typeMsg countMsg setMsg : String} {n : Nat} {expected : Finset Bytes}
    (found : Finset TestPolygon) (hfound : found.image kPolygonName = expected)
    (hn : found.card = n) :
    Expects (assertFound typeMsg countMsg setMsg n expected) expected := by
  apply expects_assertFound
  rw [← hfound, Finset.card_image_of_injective _ kPolygonName_injective, hn]

theorem mem_testPolygonList (idx : TestPolygon) : idx ∈ testPolygonList := by
  cases idx <;> simp [testPolygonList]

/-- Polygons of the test added to others. -/
def addTestPolygons (m : Polygons) (list : List TestPolygon) : Polygons :=
  list.foldl (fun m idx => m.insert (kPolygonName idx) (kPolygonBody idx)) m

/-- The polygons that the test sets up. -/
def testContents : Polygons := addTestPolygons ∅ testPolygonList

theorem lookup_testContents (idx : TestPolygon) :
    testContents.lookup (kPolygonName idx) = some (kPolygonBody idx) := by
  have hne : ∀ {a b : TestPolygon}, a ≠ b → kPolygonName a ≠ kPolygonName b :=
    fun h => kPolygonName_injective.ne h
  cases idx <;>
    simp [testContents, addTestPolygons, testPolygonList, Finmap.lookup_insert_of_ne, hne]

theorem mem_testContents {p : Bytes} : p ∈ testContents ↔ ∃ idx, p = kPolygonName idx := by
  constructor
  · intro h
    simp only [testContents, addTestPolygons, testPolygonList, List.foldl_cons, List.foldl_nil,
      Finmap.mem_insert] at h
    rcases h with rfl | rfl | rfl | rfl | h
    · exact ⟨.yellow, rfl⟩
    · exact ⟨.blue, rfl⟩
    · exact ⟨.green, rfl⟩
    · exact ⟨.red, rfl⟩
    · exact absurd h (Finmap.notMem_empty)
  · rintro ⟨idx, rfl⟩
    exact Finmap.mem_iff.mpr ⟨_, lookup_testContents idx⟩

theorem keys_testContents : testContents.keys =
    {kPolygonName .red, kPolygonName .green, kPolygonName .blue, kPolygonName .yellow} := by
  ext p
  rw [Finmap.mem_keys, mem_testContents]
  constructor
  · rintro ⟨idx, rfl⟩
    cases idx <;> simp
  · intro h
    simp only [Finset.mem_insert, Finset.mem_singleton] at h
    rcases h with rfl | rfl | rfl | rfl <;> exact ⟨_, rfl⟩

variable {env : Environment}

/-- A search on the polygons of the test finds some of them exactly when these and no others
pass it. -/
theorem select_testContents_iff {test : List S2CellId → Prop} {found : Finset TestPolygon} :
    testContents.select env test = found.image kPolygonName ↔
      ∀ idx, test (bodyCovering env (kPolygonBody idx)) ↔ idx ∈ found := by
  have hmem : ∀ idx, kPolygonName idx ∈ testContents.select env test ↔
      test (bodyCovering env (kPolygonBody idx)) := by
    intro idx
    simp [mem_select, lookup_testContents]
  constructor
  · intro h idx
    rw [← hmem, h]
    exact kPolygonName_injective.mem_finset_image
  · intro h
    ext p
    by_cases hp : ∃ idx, p = kPolygonName idx
    · obtain ⟨idx, rfl⟩ := hp
      rw [hmem, h, kPolygonName_injective.mem_finset_image]
    · have hnone : p ∉ testContents.select env test := by
        rw [mem_select]
        rintro ⟨b, hb, -⟩
        exact hp (mem_testContents.mp (Finmap.mem_iff.mpr ⟨b, hb⟩))
      refine iff_of_false hnone ?_
      intro hmem
      obtain ⟨idx, -, rfl⟩ := Finset.mem_image.mp hmem
      exact hp ⟨idx, rfl⟩

/-! ### Single calls -/

/-- Nothing but the index of the test. -/
def onlyTestIndex (m : Option Polygons) : Contents :=
  Function.update (fun _ => none) kTestIndexName m

@[simp] theorem onlyTestIndex_self (m : Option Polygons) : onlyTestIndex m kTestIndexName = m :=
  Function.update_self _ _ _

@[simp] theorem update_onlyTestIndex (m m' : Option Polygons) :
    Function.update (onlyTestIndex m) kTestIndexName m' = onlyTestIndex m' :=
  Function.update_idem _ _ _

theorem onlyTestIndex_none : onlyTestIndex none = fun _ => none := Function.update_eq_self _ _

@[simp] theorem polygons_onlyTestIndex (m : Option Polygons) :
    (onlyTestIndex m).polygons kTestIndexName = m.getD ∅ := by
  cases m <;> simp [Contents.polygons]

/-- On a database with nothing but the index of the test, the calls pass exactly under a
condition, and leave these polygons in the index then. -/
abbrev Tests (env : Environment) (script : List TestCall) (m : Option Polygons) (p : Prop)
    (m' : Option Polygons) : Prop :=
  Decides (fun l : Orders × Command => exec env l.1 l.2) Prod.snd (Represents env) script
    (onlyTestIndex m) p (onlyTestIndex m')

variable {name : CommandName} {args : List Bytes} {m m' : Option Polygons} {p : Prop}
variable {assertions : CallReply Bytes → ExceptT String Option Unit}

/-- The reply to a call with good names is the one of the spatial index. -/
theorem Represents.refines_effect {K : Keyspace Bytes} {A : Contents} {c : Command} {i : Bytes}
    (h : Represents env K A) (ω : Orders) (hs : Shaped c) (hname : ∀ n ∈ names c, PlainName n)
    (hi : c.args.head? = some i) : Refines env ω c K (spatialEffect env c A) := by
  cases hA : A i with
  | none => exact h.refines_absent hs hname hi hA
  | some m => exact h.refines_exists hs hname hi hA

theorem tests_call (hs : Shaped ⟨name, kTestIndexName :: args⟩)
    (hname : ∀ n ∈ names ⟨name, kTestIndexName :: args⟩, PlainName n) {r : IndexReply × Contents}
    (heffect : spatialEffect env ⟨name, kTestIndexName :: args⟩ (onlyTestIndex m) = r)
    (hpass : p → r.2 = onlyTestIndex m' ∧ ∀ o, Gives o r.1 →
      (assertions (callReplyOf o.reply)).run = some (.ok ()))
    (hfail : ¬ p → ∀ o, Gives o r.1 →
      ∃ e, (assertions (callReplyOf o.reply)).run = some (.error e)) :
    Tests env [testCall name args assertions] m p m' := by
  apply Decides.call
  rintro ⟨ω, c⟩ K rfl hK
  obtain ⟨o, K', he, hgives, h'⟩ := hK.refines_effect ω hs hname rfl
  rw [heffect] at hgives h'
  refine ⟨o, K', he, ?_, fun hp => hfail hp o hgives⟩
  intro hp
  obtain ⟨hcontents, hrun⟩ := hpass hp
  exact ⟨hrun o hgives, hcontents ▸ h'⟩

/-- A call whose reply is always the same and passes. -/
theorem tests_outcome (hs : Shaped ⟨name, kTestIndexName :: args⟩)
    (hname : ∀ n ∈ names ⟨name, kTestIndexName :: args⟩, PlainName n) {o : Outcome}
    (heffect : spatialEffect env ⟨name, kTestIndexName :: args⟩ (onlyTestIndex m) =
      (.outcome o, onlyTestIndex m'))
    (hrun : (assertions (callReplyOf o.reply)).run = some (.ok ())) :
    Tests env [testCall name args assertions] m True m' := by
  refine tests_call hs hname heffect (fun _ => ⟨rfl, ?_⟩) fun hno => absurd trivial hno
  rintro _ rfl
  exact hrun

/-- A listing of a set passes when it is the expected one. -/
theorem Expects.of_gives {expected s : Finset Bytes} (h : Expects assertions expected)
    {o : Outcome} (ho : Gives o (.listing s)) :
    (s = expected → (assertions (callReplyOf o.reply)).run = some (.ok ())) ∧
      (s ≠ expected → ∃ e, (assertions (callReplyOf o.reply)).run = some (.error e)) := by
  obtain ⟨l, rfl, hnodup, rfl⟩ := ho
  exact ⟨h.listing l hnodup, h.other l hnodup⟩

/-- The index and polygons of the test have good names. -/
theorem plainName_testNames (list : List TestPolygon) :
    ∀ n ∈ kTestIndexName :: list.map kPolygonName, PlainName n := by
  intro n hn
  rcases List.mem_cons.mp hn with rfl | hmem
  · exact plainName_testIndex
  · obtain ⟨idx, -, rfl⟩ := List.mem_map.mp hmem
    exact plainName_polygon idx

theorem tests_create : Tests env [createTestIndex] none True (some ∅) :=
  tests_outcome (o := replyWithSimpleString "OK") (.iset _)
    (plainName_testNames []) (by simp [spatialEffect]) rfl

theorem tests_delete (m : Polygons) : Tests env [deleteTestIndex] (some m) True none :=
  tests_outcome (o := replyWithLongLong 1) (.idel _)
    (plainName_testNames []) (by simp [spatialEffect]) rfl

/-- A polygon is set up when its body covers something. -/
theorem tests_polyset (m : Polygons) (idx : TestPolygon) :
    Tests env [testCall .polyset [kPolygonName idx, kPolygonBody idx] fun reply => do
        assertRedisTypeEqual "could not create the polygon" .integer reply
        assertIntEqual "could not create the polygon" 1 (callReplyInteger reply)]
      (some m) (bodyCovering env (kPolygonBody idx) ≠ [])
      (some (m.insert (kPolygonName idx) (kPolygonBody idx))) := by
  refine tests_call (.polyset _ _ _) (plainName_testNames [idx]) rfl
    (fun hcovered => ?_) fun hcovered o ho => ?_
  · obtain ⟨polygon, hparse⟩ := exists_parsed hcovered
    have heffect : spatialEffect env
        ⟨.polyset, [kTestIndexName, kPolygonName idx, kPolygonBody idx]⟩ (onlyTestIndex (some m)) =
        (.outcome (replyWithLongLong 1),
          onlyTestIndex (some (m.insert (kPolygonName idx) (kPolygonBody idx)))) := by
      simp [spatialEffect, accepting, hparse, hcovered]
    rw [heffect]
    refine ⟨rfl, ?_⟩
    rintro _ rfl
    rfl
  · have hrefused : ∃ text, (spatialEffect env
        ⟨.polyset, [kTestIndexName, kPolygonName idx, kPolygonBody idx]⟩
        (onlyTestIndex (some m))).1 = .outcome (replyWithError text) := by
      simp only [spatialEffect, onlyTestIndex_self, accepting]
      split_ifs with hparse
      · exact ⟨_, rfl⟩
      · exact ⟨_, rfl⟩
      · exact absurd (not_not.mp hcovered) (by assumption)
    obtain ⟨text, htext⟩ := hrefused
    rw [htext] at ho
    obtain rfl := ho
    exact ⟨_, rfl⟩

theorem addTestPolygons_cons (m : Polygons) (idx : TestPolygon) (list : List TestPolygon) :
    addTestPolygons m (idx :: list) =
      addTestPolygons (m.insert (kPolygonName idx) (kPolygonBody idx)) list := rfl

/-- The loop over the polygons passes when all of them cover something. -/
theorem tests_setUp : Tests env setUpPolygons (some ∅)
    (∀ idx, bodyCovering env (kPolygonBody idx) ≠ []) (some testContents) := by
  have hlist : ∀ (list : List TestPolygon) (m : Polygons),
      Tests env (list.map fun idx =>
          testCall .polyset [kPolygonName idx, kPolygonBody idx] fun reply => do
            assertRedisTypeEqual "could not create the polygon" .integer reply
            assertIntEqual "could not create the polygon" 1 (callReplyInteger reply))
        (some m) (∀ idx ∈ list, bodyCovering env (kPolygonBody idx) ≠ [])
        (some (addTestPolygons m list)) := by
    intro list
    induction list with
    | nil =>
        intro m
        exact Decides.nil.congr (by simp)
    | cons idx list ih =>
        intro m
        rw [addTestPolygons_cons]
        exact ((tests_polyset m idx).append (ih _)).congr (by simp)
  exact (hlist testPolygonList ∅).congr (by simp [mem_testPolygonList])

/-- A polygon search passes when its query covers something and it finds what is expected. -/
theorem tests_polysearch (m : Polygons) (q : Bytes) {expected : Finset Bytes}
    (h : Expects assertions expected) :
    Tests env [testCall .polysearch [q] assertions] (some m)
      (bodyCovering env q ≠ [] ∧
        m.select env (fun cells => Overlaps cells (bodyCovering env q)) = expected) (some m) := by
  refine tests_call (.polysearch _ _) (plainName_testNames []) rfl
    (fun hp => ?_) fun hp o ho => ?_
  · obtain ⟨polygon, hparse⟩ := exists_parsed hp.1
    have heffect : spatialEffect env ⟨.polysearch, [kTestIndexName, q]⟩ (onlyTestIndex (some m)) =
        (.listing (m.select env fun cells => Overlaps cells (bodyCovering env q)),
          onlyTestIndex (some m)) := by
      simp [spatialEffect, accepting, hparse, hp.1]
    rw [heffect]
    exact ⟨rfl, fun o ho => (h.of_gives ho).1 hp.2⟩
  · simp only [spatialEffect, onlyTestIndex_self, accepting] at ho
    split_ifs at ho with hparse hcovered
    · obtain rfl := ho
      exact h.error _
    · obtain rfl := ho
      exact h.error _
    · exact (h.of_gives ho).2 fun he => hp ⟨hcovered, he⟩

/-- A point search passes when its point is read and it finds what is expected. -/
theorem tests_pointsearch (m : Polygons) (q : Bytes) {expected : Finset Bytes}
    (h : Expects assertions expected) :
    Tests env [testCall .pointsearch [q] assertions] (some m)
      (∃ point, parseLatLng env q = some point ∧ m.select env (fun cells =>
        ↑(env.cellIdOfPoint (env.toPoint point)) ∈ innerRegion cells) = expected) (some m) := by
  refine tests_call (.pointsearch _ _) (plainName_testNames []) rfl
    (fun hp => ?_) fun hp o ho => ?_
  · obtain ⟨point, hparse, hselect⟩ := hp
    have heffect : spatialEffect env ⟨.pointsearch, [kTestIndexName, q]⟩ (onlyTestIndex (some m)) =
        (.listing (m.select env fun cells =>
          ↑(env.cellIdOfPoint (env.toPoint point)) ∈ innerRegion cells),
          onlyTestIndex (some m)) := by
      simp [spatialEffect, hparse]
    rw [heffect]
    exact ⟨rfl, fun o ho => (h.of_gives ho).1 hselect⟩
  · simp only [spatialEffect, onlyTestIndex_self] at ho
    cases hparse : parseLatLng env q with
    | none =>
        simp only [hparse] at ho
        obtain rfl := ho
        exact h.error _
    | some point =>
        simp only [hparse] at ho
        exact (h.of_gives ho).2 fun he => hp ⟨point, hparse, he⟩

/-- A listing of the polygons passes when these are the expected ones. -/
theorem tests_polylist (m : Option Polygons) {expected : Finset Bytes}
    (h : Expects assertions expected) (hkeys : (m.getD ∅).keys = expected) :
    Tests env [testCall .polylist [] assertions] m True m := by
  refine tests_call (.polylist _) (plainName_testNames []) rfl
    (fun _ => ?_) fun hno => absurd trivial hno
  refine ⟨rfl, fun o ho => (h.of_gives ho).1 ?_⟩
  rw [polygons_onlyTestIndex, hkeys]

theorem tests_polydel_mem {m : Polygons} {idx : TestPolygon} (h : kPolygonName idx ∈ m)
    (hrun : (assertions (.integer 1)).run = some (.ok ())) :
    Tests env [testCall .polydel [kPolygonName idx] assertions] (some m) True
      (some (m.erase (kPolygonName idx))) := by
  exact tests_outcome (o := replyWithLongLong 1) (.polydel _ _) (plainName_testNames [idx])
    (by simp [spatialEffect, h]) hrun

/-! ### The functions of the test -/

theorem kPolygonBody_injective : Function.Injective kPolygonBody := by
  intro a b h
  cases a <;> cases b <;> first
    | rfl
    | exact absurd h (by decide)

theorem nulFree_kPolygonBody (idx : TestPolygon) : NulFree (kPolygonBody idx) := by
  cases idx <;> decide +kernel

/-- The stored body is compared with itself. -/
theorem assertRedisStringEqual_body (msg : String) (idx : TestPolygon) :
    (assertRedisStringEqual msg (kPolygonBody idx) (some (.string (kPolygonBody idx)))).run =
      some (.ok ()) := by
  simp [assertRedisStringEqual, callReplyStringPtr,
    strncmpEq_self (nulFree_kPolygonBody idx)]

/-- `TestIndex` always passes. -/
theorem tests_testIndex : Tests env testIndex none True none := by
  have hexists : Tests env [testCall .iset [] fun reply =>
      assertRedisTypeEqual "should not overwrite the index" .error reply] (some ∅) True (some ∅) :=
    tests_outcome (o := replyWithError "index already exists") (.iset _) (plainName_testNames [])
      (by simp [spatialEffect]) rfl
  have hget : Tests env [testCall .iget [] fun reply => do
      assertRedisTypeEqual "could not fetch the index" .string reply
      assertRedisStringEqual "could not fetch the index" (ascii "OK") reply]
        (some ∅) True (some ∅) :=
    tests_outcome (o := replyWithSimpleString "OK") (.iget _) (plainName_testNames [])
      (by simp [spatialEffect]) rfl
  have hdelete : Tests env [testCall .idel [] fun reply => do
      assertRedisTypeEqual "should not delete the index" .integer reply
      assertIntEqual "should not delete the index" 0 (callReplyInteger reply)] none True none :=
    tests_outcome (o := replyWithLongLong 0) (.idel _) (plainName_testNames [])
      (by simp [spatialEffect]) rfl
  have habsent : Tests env [testCall .iget [] fun reply =>
      assertRedisTypeEqual "should not fetch the index" .null reply] none True none :=
    tests_outcome (o := replyWithNull) (.iget _) (plainName_testNames [])
      (by simp [spatialEffect]) rfl
  have hall := tests_create.append (hexists.append (hget.append
    ((tests_delete ∅).append (hdelete.append habsent))))
  exact hall.congr (by simp only [and_self])

/-- A polygon of an index that is not there, or not in it, is answered by null. -/
theorem tests_polyget_none {m : Option Polygons} {idx : TestPolygon}
    (h : (m.bind fun m => m.lookup (kPolygonName idx)) = none)
    (hrun : (assertions .nil).run = some (.ok ())) :
    Tests env [testCall .polyget [kPolygonName idx] assertions] m True m :=
  tests_outcome (o := replyWithNull) (.polyget _ _) (plainName_testNames [idx])
    (by simp [spatialEffect, h]) hrun

theorem tests_polyget_some {m : Polygons} {idx : TestPolygon}
    (h : m.lookup (kPolygonName idx) = some (kPolygonBody idx))
    (hrun : (assertions (.string (kPolygonBody idx))).run = some (.ok ())) :
    Tests env [testCall .polyget [kPolygonName idx] assertions] (some m) True (some m) :=
  tests_outcome (o := replyWithString (kPolygonBody idx)) (.polyget _ _) (plainName_testNames [idx])
    (by simp [spatialEffect, h]) hrun

theorem tests_polymget {m : Option Polygons} (first : TestPolygon) (rest : List TestPolygon)
    {bodies : List (Option Bytes)}
    (h : ((first :: rest).map fun idx => m.bind fun m => m.lookup (kPolygonName idx)) = bodies)
    (hrun : (assertions (.array bodies)).run = some (.ok ())) :
    Tests env [testCall .polymget ((first :: rest).map kPolygonName) assertions] m True m := by
  subst h
  refine tests_outcome (o := replyWithArray _) (.polymget _ _ _)
    (plainName_testNames (first :: rest)) ?_ hrun
  simp [spatialEffect, Function.comp_def]

theorem notMem_erase_red : kPolygonName .red ∉ testContents.erase (kPolygonName .red) := by
  simp [Finmap.mem_erase]

/-- `TestPolygons` passes when all bodies cover something. -/
theorem tests_testPolygons :
    Tests env testPolygons none (∀ idx, bodyCovering env (kPolygonBody idx) ≠ []) none := by
  have hempty : Tests env [testCall .polylist [] fun reply => do
      assertRedisTypeEqual "could not list polygons" .array reply
      assertIntEqual "incorrect number of polygons returned" 0 (intLength reply)]
        (some ∅) True (some ∅) :=
    tests_polylist (some ∅) (expects_none _ _) Finmap.keys_empty
  have hlist : Tests env [testCall .polylist [] (assertFound "could not list polygons"
      "incorrect number of polygons returned" "incorrect polygons returned" 4
      {kPolygonName .red, kPolygonName .green, kPolygonName .blue, kPolygonName .yellow})]
        (some testContents) True (some testContents) :=
    tests_polylist _ (expects_polygons {.red, .green, .blue, .yellow} (by simp) rfl)
      keys_testContents
  have hbodies : Tests env [testCall .polymget (testPolygonList.map kPolygonName)
      (assertFound "could not fetch the polygon bodies"
        "incorrect number of polygon bodies returned" "incorrect polygon bodies returned" 4
        {kPolygonBody .red, kPolygonBody .green, kPolygonBody .blue, kPolygonBody .yellow})]
        (some testContents) True (some testContents) := by
    have hcard : ({kPolygonBody .red, kPolygonBody .green, kPolygonBody .blue,
        kPolygonBody .yellow} : Finset Bytes).card = 4 := by
      have himage := Finset.card_image_of_injective
        ({.red, .green, .blue, .yellow} : Finset TestPolygon) kPolygonBody_injective
      simp only [Finset.image_insert, Finset.image_singleton] at himage
      exact himage
    have hexpects := expects_assertFound "could not fetch the polygon bodies"
      "incorrect number of polygon bodies returned" "incorrect polygon bodies returned" hcard
    have hlookup : (testPolygonList.map fun idx =>
        (some testContents).bind fun m => m.lookup (kPolygonName idx)) =
          (testPolygonList.map kPolygonBody).map some := by
      simp [lookup_testContents, Function.comp_def]
    refine tests_polymget .red [.green, .blue, .yellow] hlookup (hexpects.listing _ ?_ ?_)
    · exact List.Nodup.map kPolygonBody_injective (by decide)
    · simp [testPolygonList]
  have hbody : Tests env [testCall .polyget [kPolygonName .red] fun reply => do
      assertRedisTypeEqual "could not fetch the polygon" .string reply
      assertRedisStringEqual "could not fetch the polygon" (kPolygonBody .red) reply]
        (some testContents) True (some testContents) :=
    tests_polyget_some (lookup_testContents _)
      ((run_bind_ok rfl).trans (assertRedisStringEqual_body _ .red))
  have hdelete : Tests env [testCall .polydel [kPolygonName .red] fun reply =>
      assertRedisTypeEqual "could not delete the polygon" .integer reply]
        (some testContents) True (some (testContents.erase (kPolygonName .red))) :=
    tests_polydel_mem (mem_testContents.mpr ⟨_, rfl⟩) rfl
  have hgone : Tests env [testCall .polyget [kPolygonName .red] fun reply =>
      assertRedisTypeEqual "should not fetch the polygon" .null reply]
        (some (testContents.erase (kPolygonName .red))) True
        (some (testContents.erase (kPolygonName .red))) :=
    tests_polyget_none (Finmap.lookup_eq_none.mpr notMem_erase_red) rfl
  have hagain : Tests env [testCall .polydel [kPolygonName .red] fun reply => do
      assertRedisTypeEqual "should not delete the polygon" .integer reply
      assertIntEqual "should not delete the polygon" 0 (callReplyInteger reply)]
        (some (testContents.erase (kPolygonName .red))) True
        (some (testContents.erase (kPolygonName .red))) :=
    tests_outcome (o := replyWithLongLong 0) (.polydel _ _) (plainName_testNames [.red])
      (by simp [spatialEffect]) rfl
  have hmixed : Tests env [testCall .polymget [kPolygonName .red, kPolygonName .blue]
    fun reply => do
      assertRedisTypeEqual "should return array of bodies" .array reply
      assertIntEqual "incorrect number of polygon bodies returned" 2 (intLength reply)
      assertRedisTypeEqual "should return null as a polygon body" .null
        (callReplyArrayElement reply 0)
      assertRedisTypeEqual "should return correct polygon body" .string
        (callReplyArrayElement reply 1)
      assertRedisStringEqual "should return correct polygon body" (kPolygonBody .blue)
        (callReplyArrayElement reply 1)]
        (some (testContents.erase (kPolygonName .red))) True
        (some (testContents.erase (kPolygonName .red))) := by
    have hblue : (testContents.erase (kPolygonName .red)).lookup (kPolygonName .blue) =
        some (kPolygonBody .blue) := by
      rw [Finmap.lookup_erase_ne (kPolygonName_injective.ne (by decide)), lookup_testContents]
    have hbodies : ([.red, .blue].map fun idx =>
        (some (testContents.erase (kPolygonName .red))).bind fun m =>
          m.lookup (kPolygonName idx)) = [none, some (kPolygonBody .blue)] := by
      simp [hblue]
    exact tests_polymget .red [.blue] hbodies ((run_bind_ok rfl).trans ((run_bind_ok rfl).trans
      ((run_bind_ok rfl).trans ((run_bind_ok rfl).trans
        (assertRedisStringEqual_body _ .blue)))))
  have hnoIndex : Tests env [testCall .polyget [kPolygonName .red] fun reply =>
      assertRedisTypeEqual "should not fetch the polygon" .null reply] none True none :=
    tests_polyget_none rfl rfl
  have hnoBodies : Tests env [testCall .polymget [kPolygonName .red] fun reply => do
      assertRedisTypeEqual "should return array of bodies" .array reply
      assertIntEqual "incorrect number of polygon bodies returned" 1 (intLength reply)
      assertRedisTypeEqual "should return null as a polygon body" .null
        (callReplyArrayElement reply 0)] none True none :=
    tests_polymget .red [] rfl rfl
  have hnoList : Tests env [testCall .polylist [] fun reply => do
      assertRedisTypeEqual "could not list polygons" .array reply
      assertIntEqual "incorrect number of polygons returned" 0 (intLength reply)]
        none True none :=
    tests_polylist none (expects_none _ _) Finmap.keys_empty
  have hall := tests_create.append (hempty.append (tests_setUp.append (hlist.append
    (hbodies.append (hbody.append (hdelete.append (hgone.append (hagain.append (hmixed.append
      ((tests_delete _).append (hnoIndex.append (hnoBodies.append hnoList))))))))))))
  exact hall.congr (by simp only [true_and, and_true])

/-- The polygon with this name passes a test of the covering of its body. -/
abbrev Selects (env : Environment) (test : List S2CellId → Prop) (found : Finset TestPolygon) :
    Prop :=
  ∀ idx, test (bodyCovering env (kPolygonBody idx)) ↔ idx ∈ found

/-- The point of a text is read, and it is in these polygons and no others. -/
def PointMeets (env : Environment) (point : TestPoint) (found : Finset TestPolygon) : Prop :=
  ∃ latLng, parseLatLng env (kPointBody point) = some latLng ∧
    Selects env (fun cells => ↑(env.cellIdOfPoint (env.toPoint latLng)) ∈ innerRegion cells) found

theorem tests_pointMeets (point : TestPoint) {expected : Finset Bytes} (found : Finset TestPolygon)
    (hfound : found.image kPolygonName = expected) (h : Expects assertions expected) :
    Tests env [testCall .pointsearch [kPointBody point] assertions] (some testContents)
      (PointMeets env point found) (some testContents) := by
  apply (tests_pointsearch testContents (kPointBody point) h).congr
  simp only [← hfound, select_testContents_iff, PointMeets]

/-- A query covers something, and it overlaps these polygons and no others. -/
def QueryMeets (env : Environment) (q : Bytes) (found : Finset TestPolygon) : Prop :=
  bodyCovering env q ≠ [] ∧ Selects env (fun cells => Overlaps cells (bodyCovering env q)) found

theorem tests_queryMeets (q : Bytes) {expected : Finset Bytes} (found : Finset TestPolygon)
    (hfound : found.image kPolygonName = expected) (h : Expects assertions expected) :
    Tests env [testCall .polysearch [q] assertions] (some testContents)
      (QueryMeets env q found) (some testContents) := by
  apply (tests_polysearch testContents q h).congr
  simp only [← hfound, select_testContents_iff, QueryMeets]

/-- `TestPointSearch` passes when all bodies cover something and each point is where it
should be. -/
theorem tests_testPointSearch : Tests env testPointSearch none
    ((∀ idx, bodyCovering env (kPolygonBody idx) ≠ []) ∧ PointMeets env .circle ∅ ∧
      PointMeets env .triangle {.red} ∧ PointMeets env .square {.red, .yellow}) none := by
  have hcircle : Tests env [testCall .pointsearch [kPointBody .circle] fun reply => do
      assertRedisTypeEqual "could not perform point search" .array reply
      assertIntEqual "wrong point search response" 0 (intLength reply)]
        (some testContents) (PointMeets env .circle ∅) (some testContents) :=
    tests_pointMeets .circle ∅ rfl (expects_none _ _)
  have hfound : ∀ (point : TestPoint) (n : Nat) (expected : Finset Bytes)
      (found : Finset TestPolygon), found.image kPolygonName = expected → found.card = n →
      Tests env [testCall .pointsearch [kPointBody point]
        (assertFound "could not perform point search" "wrong point search response"
          "wrong point search response" n expected)]
        (some testContents) (PointMeets env point found) (some testContents) :=
    fun point n expected found himage hn =>
      tests_pointMeets point found himage (expects_polygons found himage hn)
  have htriangle := hfound .triangle 1 {kPolygonName .red} {.red} (by simp) rfl
  have hsquare := hfound .square 2 {kPolygonName .red, kPolygonName .yellow} {.red, .yellow}
    (by simp) rfl
  have habsent : Tests env [testCall .pointsearch [kPointBody .square] fun reply =>
      assertRedisTypeEqual "should not perform point search" .error reply] none True none :=
    tests_outcome (o := replyWithError "invalid index") (.pointsearch _ _) (plainName_testNames [])
      (by simp [spatialEffect]) rfl
  have hall := tests_create.append (tests_setUp.append (hcircle.append (htriangle.append
    (hsquare.append ((tests_delete _).append habsent)))))
  exact hall.congr (by simp only [true_and, and_true])

/-- Polygons of the index are deleted one after the other. -/
theorem tests_deleteList (hrun : (assertions (.integer 1)).run = some (.ok ()))
    (list : List TestPolygon) (hnodup : list.Nodup) (m : Polygons)
    (hmem : ∀ idx ∈ list, kPolygonName idx ∈ m) :
    Tests env (list.map fun idx => testCall .polydel [kPolygonName idx] assertions) (some m) True
      (some (list.foldl (fun m idx => m.erase (kPolygonName idx)) m)) := by
  induction list generalizing m with
  | nil => exact Decides.nil
  | cons idx list ih =>
      obtain ⟨hidx, hnodup⟩ := List.nodup_cons.mp hnodup
      have hrest : ∀ other ∈ list, kPolygonName other ∈ m.erase (kPolygonName idx) := by
        intro other hother
        have hne : kPolygonName other ≠ kPolygonName idx := by
          apply kPolygonName_injective.ne
          rintro rfl
          exact hidx hother
        exact Finmap.mem_erase.mpr ⟨hne, hmem other (by simp [hother])⟩
      have hfirst : Tests env [testCall .polydel [kPolygonName idx] assertions] (some m) True
          (some (m.erase (kPolygonName idx))) := tests_polydel_mem (hmem idx (by simp)) hrun
      exact (hfirst.append (ih hnodup _ hrest)).congr (by simp only [and_self])

theorem erase_testContents :
    testPolygonList.foldl (fun m idx => m.erase (kPolygonName idx)) testContents = ∅ := by
  apply Finmap.ext_lookup
  intro p
  rw [Finmap.lookup_empty, Finmap.lookup_eq_none]
  simp only [testPolygonList, List.foldl_cons, List.foldl_nil, Finmap.mem_erase, mem_testContents]
  rintro ⟨hyellow, hblue, hgreen, hred, idx, rfl⟩
  cases idx <;> contradiction

theorem select_empty (test : List S2CellId → Prop) : (∅ : Polygons).select env test = ∅ := by
  apply Finset.eq_empty_of_forall_notMem
  intro p hp
  obtain ⟨b, hb, -⟩ := mem_select.mp hp
  simp at hb

/-- `TestPolygonSearch` passes when all bodies cover something and each query meets what it
should meet. -/
theorem tests_testPolygonSearch : Tests env testPolygonSearch none
    ((∀ idx, bodyCovering env (kPolygonBody idx) ≠ []) ∧
      QueryMeets env (kPolygonBody .red) {.red, .yellow, .green} ∧
      QueryMeets env (kPolygonBody .green) {.green, .red} ∧
      QueryMeets env (kPolygonBody .blue) {.blue} ∧
      QueryMeets env (kPolygonBody .yellow) {.yellow, .red} ∧
      QueryMeets env surroundingBody {.yellow, .red, .blue, .green}) none := by
  have hfound : ∀ (q : Bytes) (n : Nat) (expected : Finset Bytes) (found : Finset TestPolygon),
      found.image kPolygonName = expected → found.card = n →
      Tests env [testCall .polysearch [q] (assertFound "could not perform polygon search"
        "wrong polygon search response" "wrong polygon search response" n expected)]
        (some testContents) (QueryMeets env q found) (some testContents) :=
    fun q n expected found himage hn =>
      tests_queryMeets q found himage (expects_polygons found himage hn)
  have hred := hfound (kPolygonBody .red) 3 _ {.red, .yellow, .green} rfl rfl
  have hgreen := hfound (kPolygonBody .green) 2 _ {.green, .red} rfl rfl
  have hblue := hfound (kPolygonBody .blue) 1 _ {.blue} rfl rfl
  have hyellow := hfound (kPolygonBody .yellow) 2 _ {.yellow, .red} rfl rfl
  have hsurrounding := hfound surroundingBody 4 _ {.yellow, .red, .blue, .green} rfl rfl
  simp only [Finset.image_insert, Finset.image_singleton] at hred hgreen hblue hyellow hsurrounding
  have hdelete : Tests env (testPolygonList.map fun idx =>
      testCall .polydel [kPolygonName idx] fun reply => do
        assertRedisTypeEqual "could not delete the polygon" .integer reply
        assertIntEqual "could not delete the polygon" 1 (callReplyInteger reply))
        (some testContents) True (some ∅) := by
    rw [← erase_testContents]
    exact tests_deleteList rfl testPolygonList (by decide) testContents
      fun idx _ => mem_testContents.mpr ⟨idx, rfl⟩
  have hnone : Tests env [testCall .polysearch [kPolygonBody .yellow] fun reply => do
      assertRedisTypeEqual "could not perform polygon search" .array reply
      assertIntEqual "wrong poly polygon response" 0 (intLength reply)]
        (some ∅) (bodyCovering env (kPolygonBody .yellow) ≠ []) (some ∅) := by
    apply (tests_polysearch ∅ (kPolygonBody .yellow) (expects_none _ _)).congr
    simp only [select_empty, and_true]
  have habsent : Tests env [testCall .polysearch [kPolygonBody .yellow] fun reply =>
      assertRedisTypeEqual "should not perform polygon search" .error reply] none True none :=
    tests_outcome (o := replyWithError "invalid index") (.polysearch _ _) (plainName_testNames [])
      (by simp [spatialEffect]) rfl
  have hall := tests_create.append (tests_setUp.append ((hred.append (hgreen.append (hblue.append
    (hyellow.append hsurrounding)))).append (hdelete.append (hnone.append
      ((tests_delete _).append habsent)))))
  apply hall.congr
  simp only [true_and, and_true]
  constructor
  · intro h
    exact ⟨h.1, h.2.1⟩
  · intro h
    exact ⟨h.1, h.2, h.1 .yellow⟩

end RedisS2Geo.Store
