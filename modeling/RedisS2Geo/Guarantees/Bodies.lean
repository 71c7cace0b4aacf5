import RedisS2Geo.Store.Calls
import RedisS2Geo.Store.Runs
import RedisS2Geo.Text.PolygonScan

/-!
# What is stored as a body

`POLYSET` validates the C string of the body that it is given, but stores all bytes of
it. The stored bodies are whole polygon texts as long as no body with a zero byte gets
through the checks.
-/

namespace RedisS2Geo.Guarantees
open Foundation Source Covering Text Store

variable {env : Environment} {ω : Orders} {K K' : Keyspace Bytes} {c : Command} {i p b : Bytes}
variable {o : Outcome}

/-- Every body stored under a bodies key is a polygon text over its full length. -/
def WholeBodies (env : Environment) (K : Keyspace Bytes) : Prop :=
  ∀ i p b, Entry K (i ++ entityDelim :: indexPolygonsSuffix) p b →
    ∃ points, PolygonText env b points

/-- A `POLYSET` that gets through the checks has a body without zero bytes. -/
def StoresWhole (env : Environment) (K : Keyspace Bytes) (c : Command) : Prop :=
  ∀ i p b, c = ⟨.polyset, [i, p, b]⟩ → IndexExists K i → Accepted p → bodyTerms env b ≠ ∅ →
    NulFree b

/-! ### The effect of a command on the hashes -/

/-- What a command may write into a hash: the marker, or the body of a `POLYSET` that the
parser accepts. -/
def Written (env : Environment) (c : Command) (i key field value : Bytes) : Prop :=
  key = createIndexMetaHashKey i ∨
    key = createIndexPolygonsHashKey i ∧ c = ⟨.polyset, [i, field, value]⟩ ∧
      parsePolygon env value ≠ none

theorem ModuleCall.writes {call : Call Bytes} (h : ModuleCall env c i call) :
    WritesOnly (Written env c i) (redisModuleCall call) := by
  cases h with
  | readMarker => exact writes_of_read (hget_snd _ _)
  | writeMarker => exact writes_hset (Or.inl rfl)
  | deleteMarker => exact writes_del _ _
  | listNames order => exact writes_of_read (hkeys_snd order _)
  | readBody => exact writes_of_read (hget_snd _ _)
  | readBodies => exact writes_of_read (hmget_snd _ _)
  | storeBody hc hparse => exact writes_hset (Or.inr ⟨rfl, hc, hparse⟩)
  | deleteBody => exact writes_hdel _ _ _
  | addTerms => exact writes_sadd _ _ _
  | readTerms order => exact writes_of_read (smembers_snd order _)
  | deleteTerms => exact writes_del _ _
  | addToCell => exact writes_sadd _ _ _
  | removeFromCell => exact writes_srem _ _ _
  | searchCells order => exact writes_of_read (sunion_snd order _)

theorem exec_entries (hi : c.args.head? = some i) (he : exec env ω c K = some (o, K'))
    {key field value : Bytes} (h : Entry K' key field value) :
    Entry K key field value ∨ Written env c i key field value :=
  holds_exec ω hi ⟨sequential_writes _, ModuleCall.writes⟩ K o K' he key field value h

/-- A `POLYSET` changes the keyspace only behind its checks. -/
theorem polyset_unchanged (he : exec env ω ⟨.polyset, [i, p, b]⟩ K = some (o, K')) :
    K' = K ∨ IndexExists K i ∧ Accepted p ∧ bodyTerms env b ≠ ∅ := by
  have hs := Shaped.polyset i p b
  by_cases hn : ∃ n ∈ names ⟨.polyset, [i, p, b]⟩, ¬ Accepted n
  · obtain ⟨text, hr, -⟩ := exec_refused env K ω hs hn
    exact Or.inl (exec_unique he hr).2
  · push Not at hn
    have hi : Accepted i := hn i (by simp [names])
    have hp : Accepted p := hn p (by simp [names])
    rcases index_cases K hi with hx | hx | hx
    · by_cases hb : bodyTerms env b = ∅
      · obtain ⟨text, -, hr⟩ := setPolygonCommand_refused ω hp hb
        exact Or.inl (exec_unique he (hr K hx)).2
      · exact Or.inr ⟨hx, hp, hb⟩
    · exact Or.inl (exec_unique he (setPolygonCommand_absent ω hx hp)).2
    · obtain ⟨text, hr⟩ := exec_foreign env ω hs hn rfl
      exact Or.inl (exec_unique he (hr K hx)).2

/-- A marker is stored under no bodies key. -/
theorem polygonsKey_ne_metaKey (i j : Bytes) :
    j ++ entityDelim :: indexPolygonsSuffix ≠ createIndexMetaHashKey i := by
  intro h
  have hpolygons : (entityDelim :: indexPolygonsSuffix).getLast? = some (chr 's') := by decide
  have hmeta : (entityDelim :: indexMetaSuffix).getLast? = some (chr 'a') := by decide
  have hlast := congrArg List.getLast? h
  rw [createIndexMetaHashKey, List.getLast?_append, List.getLast?_append, hpolygons, hmeta,
    Option.some_or, Option.some_or] at hlast
  exact absurd hlast (by decide)

/-! ### Runs -/

theorem exists_text_of_parsed (hb : NulFree b) (h : parsePolygon env b ≠ none) :
    ∃ points, PolygonText env b points := by
  apply exists_text_of_accepted hb
  by_contra hret
  exact h (if_pos hret)

theorem wholeBodies_step (hinv : WholeBodies env K) (hc : StoresWhole env K c)
    (he : exec env ω c K = some (o, K')) : WholeBodies env K' := by
  intro j q body hentry
  by_cases hs : Shaped c
  · obtain ⟨i, hi⟩ : ∃ i, c.args.head? = some i := by cases hs <;> exact ⟨_, rfl⟩
    rcases exec_entries hi he hentry with hold | hmeta | ⟨-, rfl, hparse⟩
    · exact hinv j q body hold
    · exact absurd hmeta (polygonsKey_ne_metaKey i j)
    · rcases polyset_unchanged he with rfl | ⟨hx, hp, hb⟩
      · exact hinv j q body hentry
      · exact exists_text_of_parsed (hc i q body rfl hx hp hb) hparse
  · obtain ⟨-, rfl⟩ := exec_unique he (exec_wrongArity ω hs)
    exact hinv j q body hentry

/-- In a run in which no body with a zero byte gets through the checks, only whole polygon
texts are stored. -/
theorem bodies_whole
    (h : ReachableWhen (step env) (fun K l => StoresWhole env K l.2) emptyKeyspace K) :
    WholeBodies env K := by
  apply h.invariant (WholeBodies env)
  · rintro i p b ⟨fields, hfields, hlookup⟩
    obtain rfl : ∅ = fields := by simpa [emptyKeyspace] using hfields
    simp at hlookup
  · rintro ⟨ω, c⟩ K o K' hc hinv hs
    exact wholeBodies_step hinv hc hs

/-- Storing the triangle in the index `i`. -/
theorem bodies_whole_triangle : ∃ K, bodyAt K (ascii "i") (ascii "p") = some triangleBody ∧
    WholeBodies sampleEnvironment K := by
  obtain ⟨K, hrun, -, -, hbody⟩ := exists_sampleRun covered_triangleBody
  obtain ⟨o₁, K₁, os, hset, hrest, -⟩ := run_cons_eq_some.mp hrun
  obtain ⟨o₂, K₂, os', hput, hend, -⟩ := run_cons_eq_some.mp hrest
  obtain ⟨-, rfl⟩ : [] = os' ∧ K₂ = K := by simpa using hend
  refine ⟨K₂, hbody, bodies_whole ((ReachableWhen.start.step ?_ hset).step ?_ hput)⟩
  · intro i p b hc
    simp at hc
  · intro i p b hc _ _ _
    obtain ⟨-, -, rfl⟩ : ascii "i" = i ∧ ascii "p" = p ∧ triangleBody = b := by simpa using hc
    decide

theorem entry_of_bodyAt (hi : NulFree i) (h : bodyAt K i p = some b) :
    Entry K (i ++ entityDelim :: indexPolygonsSuffix) p b := by
  have hkey : createIndexPolygonsHashKey i = i ++ entityDelim :: indexPolygonsSuffix := by
    rw [createIndexPolygonsHashKey, cString_eq_self hi]
  rw [bodyAt, hkey] at h
  exact Option.bind_eq_some_iff.mp h

/-- The triangle is accepted and stored with everything behind a zero byte. -/
theorem polyset_stores_tail : ∃ K,
    run (step sampleEnvironment) [(ascending, ⟨.iset, [ascii "i"]⟩),
      (ascending, ⟨.polyset, [ascii "i", ascii "p", triangleBody ++ 0 :: ascii "]junk"]⟩)]
      emptyKeyspace = some ([replyWithSimpleString "OK", replyWithLongLong 1], K) ∧
    ¬ WholeBodies sampleEnvironment K := by
  have hcovered : bodyCovering sampleEnvironment (triangleBody ++ 0 :: ascii "]junk") ≠ [] := by
    decide
  obtain ⟨K, hrun, -, -, hbody⟩ := exists_sampleRun hcovered
  refine ⟨K, hrun, ?_⟩
  intro hwhole
  obtain ⟨points, htext⟩ := hwhole _ _ _ (entry_of_bodyAt plainName_i.2 hbody)
  exact nulFree_of_spells strtodEndsInside_sample htext.spells (by decide)

end RedisS2Geo.Guarantees
