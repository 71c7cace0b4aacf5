import RedisS2Geo.Foundation.Clients
import RedisS2Geo.Guarantees.Clients
import RedisS2Geo.Guarantees.Isolation
import RedisS2Geo.Store.Effects
import RedisS2Geo.Store.Events
import Mathlib.Tactic.FinCases

/-!
# Any number of clients

Two commands are independent when both only read, when they name different indexes, or
when they are about different polygons. Clients whose commands are independent of those
of the other clients need no coordination: all interleavings of their programs are
equivalent.
-/

namespace RedisS2Geo.Guarantees
open Foundation Source Covering Store

/-- Commands that have nothing to do with each other. -/
inductive Independent : Command → Command → Prop
  | readOnly {c d : Command} (hc : ReadOnly c) (hd : ReadOnly d) : Independent c d
  | index {c d : Command} (h : c.args.head?.map cString ≠ d.args.head?.map cString) :
      Independent c d
  | polygon {c d : Command} {i p q : Bytes} (hc : OnPolygon i p c) (hd : OnPolygon i q d)
      (h : p ≠ q) : Independent c d

variable {env : Environment} {K : Keyspace Bytes} {c d : Command} {ω ω' : Orders}

/-- Commands that leave the keyspace as it is commute. -/
theorem commute_unchanged {oa ob : Outcome} (hc : exec env ω c K = some (oa, K))
    (hd : exec env ω' d K = some (ob, K)) : CommuteAt (step env) (ω, c) (ω', d) K :=
  .of_observed hc hd hd

theorem commute_readOnly (hc : ReadOnly c) (hd : ReadOnly d) :
    CommuteAt (step env) (ω, c) (ω', d) K := by
  obtain ⟨oa, ha⟩ := observes_exec env ω hc K
  obtain ⟨ob, hb⟩ := observes_exec env ω' hd K
  exact commute_unchanged ha hb

/-- Every command is local to the keys of its index, or to none when this is refused. -/
theorem exists_region (env : Environment) (ω : Orders) (c : Command) :
    ∃ R, Local R (exec env ω c) ∧ (R = ∅ ∨
      ∃ i, c.args.head? = some i ∧ entityDelim ∉ cString i ∧ R = region (cString i)) := by
  by_cases hacc : ∃ i, c.args.head? = some i ∧ Accepted i
  · obtain ⟨i, hi, hacc⟩ := hacc
    exact ⟨_, local_exec env ω i hi, Or.inr ⟨i, hi, hacc.notMem, rfl⟩⟩
  · push Not at hacc
    exact ⟨∅, local_exec_refused env ω hacc, Or.inl rfl⟩

/-- Commands on different indexes commute on every keyspace where they answer. -/
theorem commute_index (h : c.args.head?.map cString ≠ d.args.head?.map cString)
    {oa ob : Outcome} {K₁ K₂ : Keyspace Bytes} (hc : exec env ω c K = some (oa, K₁))
    (hd : exec env ω' d K = some (ob, K₂)) : CommuteAt (step env) (ω, c) (ω', d) K := by
  obtain ⟨R, hR, hcases⟩ := exists_region env ω c
  obtain ⟨R', hR', hcases'⟩ := exists_region env ω' d
  have hdisjoint : Disjoint R R' := by
    rcases hcases with rfl | ⟨i, hi, hn, rfl⟩
    · exact disjoint_bot_left
    · rcases hcases' with rfl | ⟨j, hj, hn', rfl⟩
      · exact disjoint_bot_right
      · apply disjoint_region hn hn'
        intro he
        rw [hi, hj, Option.map_some, Option.map_some, he] at h
        exact h rfl
  have ha : Local R (step env (ω, c) : StateT (Keyspace Bytes) Option Outcome) := hR
  have hb : Local R' (step env (ω', d) : StateT (Keyspace Bytes) Option Outcome) := hR'
  exact commuteAt_of_local ha hb hdisjoint hc hd

/-- A read of a polygon commutes with every command on another one. -/
theorem commute_polyget {i p q : Bytes} (hi : Accepted i) (hq : Accepted q)
    (hc : OnPolygon i p c) (hp : Accepted p) (h : p ≠ q) {oa : Outcome} {K₁ : Keyspace Bytes}
    (he : exec env ω c K = some (oa, K₁)) :
    CommuteAt (step env) (ω, c) (ω', ⟨.polyget, [i, q]⟩) K := by
  have hread : ReadOnly ⟨.polyget, [i, q]⟩ := rfl
  obtain ⟨ob, hb⟩ := observes_exec env ω' hread K
  obtain ⟨ob', hb'⟩ := observes_exec env ω' hread K₁
  have hsame : replyOf env ω' ⟨.polyget, [i, q]⟩ K₁ = replyOf env ω' ⟨.polyget, [i, q]⟩ K :=
    (sameFor_of_ne hc hi hp h.symm he).polyget hi hq ω'
  rw [replyOf, replyOf, hb, hb', Option.map_some, Option.map_some, Option.some.injEq] at hsame
  obtain rfl : ob' = ob := hsame
  exact .of_observed he hb hb'

theorem OnPolygon.shaped {i p : Bytes} (h : OnPolygon i p c) : Shaped c := by
  cases h <;> constructor

theorem OnPolygon.mem_names {i p : Bytes} (h : OnPolygon i p c) : i ∈ names c ∧ p ∈ names c := by
  cases h <;> simp [names]

/-- A command about a polygon is a write or a read. -/
theorem OnPolygon.writes_or_read {i p : Bytes} (h : OnPolygon i p c) :
    Writes i p c ∨ c = ⟨.polyget, [i, p]⟩ := by
  cases h with
  | polyset b => exact Or.inl (.polyset b)
  | polydel => exact Or.inl .polydel
  | polyget => exact Or.inr rfl

/-- A command whose polygon name is refused commutes with everything. -/
theorem commute_refused {i p : Bytes} (hi : Accepted i) (hp : ¬ Accepted p)
    (hc : OnPolygon i p c) {od : Outcome} {K₁ : Keyspace Bytes}
    (hd : exec env ω' d K = some (od, K₁)) : CommuteAt (step env) (ω', d) (ω, c) K := by
  have hbad : ∃ n ∈ names c, ¬ Accepted n := ⟨p, hc.mem_names.2, hp⟩
  exact .of_observed hd (exec_polygonName_refused ω hc.shaped hc.head hi hbad)
    (exec_polygonName_refused ω hc.shaped hc.head hi hbad)

/-- Without the index a command about a polygon leaves the keyspace as it is. -/
theorem OnPolygon.exec_absent {i p : Bytes} (h : OnPolygon i p c) (hx : IndexAbsent K i)
    (hp : Accepted p) : ∃ o, exec env ω c K = some (o, K) := by
  cases h with
  | polyset b => exact ⟨_, setPolygonCommand_absent ω hx hp⟩
  | polydel => exact ⟨_, deletePolygonCommand_absent ω hx hp⟩
  | polyget => exact ⟨_, getPolygonCommand_absent hx hp⟩

/-- Commands about different polygons of one index commute on represented keyspaces. -/
theorem commute_polygon {A : Contents} (hK : Represents env K A) {i p q : Bytes}
    (hc : OnPolygon i p c) (hd : OnPolygon i q d) (h : p ≠ q) (hcn : NulFreeNames c)
    (hdn : NulFreeNames d) : CommuteAt (step env) (ω, c) (ω', d) K := by
  obtain ⟨oc, K₁, -, hec, -⟩ := hK.exec ω hcn
  obtain ⟨od, K₂, -, hed, -⟩ := hK.exec ω' hdn
  by_cases hi : Accepted i
  · by_cases hp : Accepted p
    · by_cases hq : Accepted q
      · rcases index_cases K hi with hx | hx | hx
        · rcases hc.writes_or_read with hwc | rfl
          · rcases hd.writes_or_read with hwd | rfl
            · obtain ⟨m, hA⟩ := hK.exists_polygons hx
              have hpc := hcn p hc.mem_names.2
              have hqd := hdn q hd.mem_names.2
              exact writes_commute hi hpc hqd hwc hwd h ⟨A, m, hK, hA⟩
            · exact commute_polyget hi hq hc hp h hec
          · exact (commute_polyget hi hp hd hq h.symm hed).symm
        · obtain ⟨_, hc'⟩ : ∃ o, exec env ω c K = some (o, K) := hc.exec_absent hx hp
          obtain ⟨_, hd'⟩ : ∃ o, exec env ω' d K = some (o, K) := hd.exec_absent hx hq
          exact commute_unchanged hc' hd'
        · have hm := hK.markerStatus_eq hi.notMem
          rw [hx.marker] at hm
          split at hm <;> cases hm
      · exact commute_refused hi hq hd hec
    · exact (commute_refused hi hp hc hed).symm
  · exact commute_unchanged (exec_indexName_refused ω hc.shaped hc.head hi)
      (exec_indexName_refused ω' hd.shaped hd.head hi)

/-- Independent commands commute on represented keyspaces. -/
theorem commute_independent {A : Contents} (hK : Represents env K A) (h : Independent c d)
    (hcn : NulFreeNames c) (hdn : NulFreeNames d) : CommuteAt (step env) (ω, c) (ω', d) K := by
  cases h with
  | readOnly hc hd => exact commute_readOnly hc hd
  | index h =>
      obtain ⟨_, _, -, hec, -⟩ := hK.exec ω hcn
      obtain ⟨_, _, -, hed, -⟩ := hK.exec ω' hdn
      exact commute_index h hec hed
  | polygon hc hd h => exact commute_polygon hK hc hd h hcn hdn

/-- Any number of clients send any of the ten commands. When the commands of different
clients are independent, all interleavings of their programs end in the same keyspace, and
each client gets the same replies. -/
theorem interleavings_equivalent {ι : Type} [DecidableEq ι] (hK : ReachableStore env K)
    {zs zs' : List (ι × (Orders × Command))} (hnames : ∀ z ∈ zs, NulFreeNames z.2.2)
    (hindep : ∀ z ∈ zs, ∀ w ∈ zs, z.1 ≠ w.1 → Independent z.2.2 w.2.2)
    (hparts : ∀ k, part k zs = part k zs') :
    ∃ os os' K', run (tagged (step env)) zs K = some (os, K') ∧
      run (tagged (step env)) zs' K = some (os', K') ∧ ∀ k, part k os = part k os' := by
  have hlive : ∀ z ∈ zs, ∀ L, (∃ A, Represents env L A) →
      ∃ o L', step env z.2 L = some (o, L') ∧ ∃ A, Represents env L' A := by
    rintro z hz L ⟨A, hA⟩
    obtain ⟨o, L', A', he, h'⟩ := hA.exec z.2.1 (hnames z hz)
    exact ⟨o, L', he, A', h'⟩
  have hcomm : ∀ z ∈ zs, ∀ w ∈ zs, z.1 ≠ w.1 → ∀ L, (∃ A, Represents env L A) →
      CommuteAt (step env) z.2 w.2 L := by
    rintro z hz w hw hzw L ⟨A, hA⟩
    exact commute_independent hA (hindep z hz w hw hzw) (hnames z hz) (hnames w hw)
  exact run_interleavings hlive hcomm hparts hK.represents

/-- Three clients: two write polygons of one index, the third one creates another index. -/
def threeClients : List (Fin 3 × (Orders × Command)) :=
  [(0, ascending, ⟨.polyset, [ascii "i", ascii "p", holeBody]⟩),
    (1, ascending, ⟨.polydel, [ascii "i", ascii "q"]⟩),
    (2, ascending, ⟨.iset, [ascii "j"]⟩)]

theorem interleavings_equivalent_three :
    ∃ K os os' K', ReachableStore sampleEnvironment K ∧
      run (tagged (step sampleEnvironment)) threeClients K = some (os, K') ∧
      run (tagged (step sampleEnvironment)) threeClients.reverse K = some (os', K') ∧
      ∀ k, part k os = part k os' := by
  obtain ⟨K, hK, -, -⟩ := exists_sample covered_triangleBody
  have hnames : ∀ z ∈ threeClients, NulFreeNames z.2.2 := by
    simp only [threeClients, List.forall_mem_cons, NulFreeNames, names]
    decide
  have hpq : Independent ⟨.polyset, [ascii "i", ascii "p", holeBody]⟩
      ⟨.polydel, [ascii "i", ascii "q"]⟩ := .polygon (.polyset _) .polydel (by decide)
  have hqp : Independent ⟨.polydel, [ascii "i", ascii "q"]⟩
      ⟨.polyset, [ascii "i", ascii "p", holeBody]⟩ := .polygon .polydel (.polyset _) (by decide)
  have hindex : ∀ name name' args args',
      Independent ⟨name, ascii "i" :: args⟩ ⟨name', ascii "j" :: args'⟩ ∧
        Independent ⟨name', ascii "j" :: args'⟩ ⟨name, ascii "i" :: args⟩ := by
    intro name name' args args'
    have hne : (some (ascii "i")).map cString ≠ (some (ascii "j")).map cString := by decide
    exact ⟨.index hne, .index hne.symm⟩
  have hindep : ∀ z ∈ threeClients, ∀ w ∈ threeClients, z.1 ≠ w.1 →
      Independent z.2.2 w.2.2 := by
    simp [threeClients, hpq, hqp, hindex]
  have hparts : ∀ k, part k threeClients = part k threeClients.reverse := by
    intro k
    fin_cases k <;> rfl
  obtain ⟨os, os', K', h⟩ := interleavings_equivalent hK hnames hindep hparts
  exact ⟨K, os, os', K', hK, h⟩

end RedisS2Geo.Guarantees
