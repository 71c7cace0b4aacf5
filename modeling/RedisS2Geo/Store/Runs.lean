import RedisS2Geo.Store.MapMachine

/-!
# Runs of the module

Every keyspace that commands with names without zero bytes lead to, starting from
an empty one, stands for some contents. Facts about reachable keyspaces are facts
about represented contents.
-/

namespace RedisS2Geo.Store
open Foundation Source Covering

/-- One command of the module, with the orders in which it sees its sets listed. -/
def step (env : Environment) : Step (Keyspace Bytes) (Orders × Command) Outcome :=
  fun l K => exec env l.1 l.2 K

/-- The empty database. -/
def emptyKeyspace : Keyspace Bytes := fun _ => none

/-- All names that a command gives are without zero bytes. -/
def NulFreeNames (c : Command) : Prop := ∀ n ∈ names c, NulFree n

/-- A keyspace that commands with names without zero bytes lead to. -/
abbrev ReachableStore (env : Environment) : Keyspace Bytes → Prop :=
  Reachable (step env) (fun l => NulFreeNames l.2) emptyKeyspace

variable {env : Environment} {K : Keyspace Bytes} {A : Contents}

/-- A search leaves every represented keyspace as it is. -/
theorem Represents.exec_search (h : Represents env K A) (ω : Orders) {c : Command}
    (hs : Shaped c) (hc : c.name = .polysearch ∨ c.name = .pointsearch) :
    ∃ o, exec env ω c K = some (o, K) := by
  by_cases hr : ∃ n ∈ names c, ¬ Accepted n
  · obtain ⟨text, he, -⟩ := exec_refused env K ω hs hr
    exact ⟨_, he⟩
  · push Not at hr
    cases hs with
    | polysearch i b =>
        obtain ⟨o, he, -⟩ := h.searchPolygonCommand_total ω b (hr i (by simp [names]))
        exact ⟨o, he⟩
    | pointsearch i b =>
        obtain ⟨o, he, -⟩ := h.searchPointCommand_total ω b (hr i (by simp [names]))
        exact ⟨o, he⟩
    | _ => simp at hc

/-- Every command with names without zero bytes is answered, and the keyspace afterwards
stands for some contents again. -/
theorem Represents.exec (h : Represents env K A) (ω : Orders) {c : Command}
    (hc : NulFreeNames c) :
    ∃ o K' A', Source.exec env ω c K = some (o, K') ∧ Represents env K' A' := by
  by_cases hs : Shaped c
  · by_cases hm : ∃ d : MapCommand, d.toCommand = c
    · obtain ⟨d, rfl⟩ := hm
      obtain ⟨o, K', he, -, h'⟩ := exec_simulates env (ω, d) K A
        (fun n hn => hc n (names_toCommand d ▸ hn)) h
      exact ⟨o, K', _, he, h'⟩
    · -- only the two searches are no commands of the map
      have hname : c.name = .polysearch ∨ c.name = .pointsearch := by
        cases hs with
        | iset i => exact absurd ⟨.iset i, rfl⟩ hm
        | iget i => exact absurd ⟨.iget i, rfl⟩ hm
        | idel i => exact absurd ⟨.idel i, rfl⟩ hm
        | polyset i p b => exact absurd ⟨.polyset i p b, rfl⟩ hm
        | polyget i p => exact absurd ⟨.polyget i p, rfl⟩ hm
        | polymget i p rest => exact absurd ⟨.polymget i p rest, rfl⟩ hm
        | polydel i p => exact absurd ⟨.polydel i p, rfl⟩ hm
        | polylist i => exact absurd ⟨.polylist i, rfl⟩ hm
        | polysearch i b => exact Or.inl rfl
        | pointsearch i b => exact Or.inr rfl
      obtain ⟨o, he⟩ := h.exec_search ω hs hname
      exact ⟨o, K, A, he, h⟩
  · exact ⟨_, K, A, exec_wrongArity ω hs, h⟩

/-- A reachable keyspace stands for contents. -/
theorem ReachableStore.represents (h : ReachableStore env K) : ∃ A, Represents env K A := by
  refine Reachable.invariant (fun K => ∃ A, Represents env K A) h ⟨_, Represents.empty⟩ ?_
  rintro ⟨ω, c⟩ K o K' hc ⟨A, hA⟩ hs
  obtain ⟨o', K'', A', he, h'⟩ := hA.exec ω hc
  simp only [step, he, Option.some.injEq, Prod.mk.injEq] at hs
  exact ⟨A', hs.2 ▸ h'⟩

/-- Creating an index and storing one polygon in it. -/
theorem exists_single (env : Environment) (ω : Orders) {i p b : Bytes} (hi : PlainName i)
    (hp : PlainName p) (hb : bodyTerms env b ≠ ∅) :
    ∃ K, run (step env) [(ω, ⟨.iset, [i]⟩), (ω, ⟨.polyset, [i, p, b]⟩)] emptyKeyspace =
        some ([replyWithSimpleString "OK", replyWithLongLong 1], K) ∧
      ReachableStore env K ∧ IndexExists K i ∧ bodyAt K i p = some b := by
  have hempty : Represents env emptyKeyspace fun _ => none := Represents.empty
  have hset := setIndexCommand_absent (hempty.indexAbsent hi.1 rfl)
  have h₁ := hempty.create hi.1.notMem (hi.cString_eq.symm ▸ hi) rfl
  obtain ⟨K, hput, h₂⟩ :=
    h₁.setPolygonCommand_plain ω hi.1 (Function.update_self _ _ _) hp hb
  rw [Function.update_idem] at h₂
  have hrun : run (step env) [(ω, ⟨.iset, [i]⟩), (ω, ⟨.polyset, [i, p, b]⟩)] emptyKeyspace =
      some ([replyWithSimpleString "OK", replyWithLongLong 1], K) :=
    run_cons_eq_some.mpr ⟨_, _, _, hset, run_cons_eq_some.mpr ⟨_, _, _, hput, rfl, rfl⟩, rfl⟩
  have hA := Function.update_self (cString i) (some ((∅ : Polygons).insert p b)) fun _ => none
  have hbody : bodyAt K i p = some b := by
    rw [h₂.bodyAt_eq hi.1.notMem, Contents.polygons_of_some hA, Finmap.lookup_insert]
  refine ⟨K, hrun, Reachable.start.run (fun l hl n hn => ?_) hrun, h₂.indexExists hi.1 hA, hbody⟩
  have hn' : n = i ∨ n = p := by
    rcases (by simpa using hl : l = (ω, ⟨.iset, [i]⟩) ∨ l = (ω, ⟨.polyset, [i, p, b]⟩)) with
      rfl | rfl
    · exact Or.inl (by simpa [names] using hn)
    · simpa [names] using hn
  rcases hn' with rfl | rfl
  · exact hi.2
  · exact hp.2

/-- Two polygons stored one after the other in one index. -/
theorem exists_pair (env : Environment) (ω : Orders) {i p q b c : Bytes} (hi : PlainName i)
    (hp : PlainName p) (hq : PlainName q) (hne : p ≠ q) (hb : bodyTerms env b ≠ ∅)
    (hc : bodyTerms env c ≠ ∅) :
    ∃ K, ReachableStore env K ∧ IndexExists K i ∧ bodyAt K i p = some b ∧
      bodyAt K i q = some c := by
  obtain ⟨K₁, -, hK₁, hx₁, hb₁⟩ := exists_single env ω hi hp hb
  obtain ⟨A, h₁⟩ := hK₁.represents
  obtain ⟨m, hA⟩ := h₁.exists_polygons hx₁
  rw [h₁.bodyAt_eq hi.1.notMem, Contents.polygons_of_some hA] at hb₁
  obtain ⟨K, hput, h⟩ := h₁.setPolygonCommand_plain ω hi.1 hA hq hc
  have hA' := Function.update_self (cString i) (some (m.insert q c)) A
  have hnames : NulFreeNames ⟨.polyset, [i, q, c]⟩ := by
    intro n hn
    rcases (by simpa [names] using hn : n = i ∨ n = q) with rfl | rfl
    · exact hi.2
    · exact hq.2
  have hstep : step env (ω, ⟨.polyset, [i, q, c]⟩) K₁ = some (replyWithLongLong 1, K) := hput
  have hK : ReachableStore env K := hK₁.step hnames hstep
  refine ⟨K, hK, h.indexExists hi.1 hA', ?_, ?_⟩
  · rw [h.bodyAt_eq hi.1.notMem, Contents.polygons_of_some hA',
      Finmap.lookup_insert_of_ne m hne, hb₁]
  · rw [h.bodyAt_eq hi.1.notMem, Contents.polygons_of_some hA', Finmap.lookup_insert]

/-! ### Sample stores -/

/-- A polygon whose complement is smaller than a cell. -/
def holeBody : Bytes := ascii "[[[90,0],[90,1e-9],[90.000000001,0],[90,0]]]"

/-- A larger triangle. -/
def largeBody : Bytes := ascii "[[[0,0],[1,0],[0,1],[0,0]]]"

/-- The body of the small triangle. -/
def triangleBody : Bytes := ascii "[[[1e-9,1e-9],[3e-9,1e-9],[1e-9,3e-9],[1e-9,1e-9]]]"

theorem bodyCovering_holeBody : bodyCovering sampleEnvironment holeBody = faces := rfl

theorem bodyCovering_largeBody : bodyCovering sampleEnvironment largeBody = faces := rfl

theorem parsePolygon_triangleBody :
    parsePolygon sampleEnvironment triangleBody = some smallTriangle := rfl

theorem bodyCovering_triangleBody :
    bodyCovering sampleEnvironment triangleBody = [leafOfOrigin.1] := by
  rw [bodyCovering, parsePolygon_triangleBody]
  rfl

theorem covered_holeBody : bodyCovering sampleEnvironment holeBody ≠ [] := by
  rw [bodyCovering_holeBody]
  decide

theorem covered_largeBody : bodyCovering sampleEnvironment largeBody ≠ [] := by
  rw [bodyCovering_largeBody]
  decide

theorem covered_triangleBody : bodyCovering sampleEnvironment triangleBody ≠ [] := by
  rw [bodyCovering_triangleBody]
  exact List.cons_ne_nil _ _

theorem plainName_i : PlainName (ascii "i") := ⟨by decide, by decide⟩

theorem plainName_p : PlainName (ascii "p") := ⟨by decide, by decide⟩

theorem plainName_q : PlainName (ascii "q") := ⟨by decide, by decide⟩

/-- Creating the index `i` and storing the polygon `p` in it. -/
theorem exists_sampleRun {b : Bytes} (hb : bodyCovering sampleEnvironment b ≠ []) :
    ∃ K, run (step sampleEnvironment) [(ascending, ⟨.iset, [ascii "i"]⟩),
        (ascending, ⟨.polyset, [ascii "i", ascii "p", b]⟩)] emptyKeyspace =
          some ([replyWithSimpleString "OK", replyWithLongLong 1], K) ∧
      ReachableStore sampleEnvironment K ∧ IndexExists K (ascii "i") ∧
        bodyAt K (ascii "i") (ascii "p") = some b :=
  exists_single sampleEnvironment ascending plainName_i plainName_p
    (bodyTerms_eq_empty_iff.not.mpr hb)

/-- A store with the index `i` and the polygon `p` in it. -/
theorem exists_sample {b : Bytes} (hb : bodyCovering sampleEnvironment b ≠ []) :
    ∃ K, ReachableStore sampleEnvironment K ∧ IndexExists K (ascii "i") ∧
      bodyAt K (ascii "i") (ascii "p") = some b := by
  obtain ⟨K, -, h⟩ := exists_sampleRun hb
  exact ⟨K, h⟩

end RedisS2Geo.Store
