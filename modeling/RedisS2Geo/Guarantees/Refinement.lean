import RedisS2Geo.Store.SpatialIndex

/-!
# The module refines a spatial index

Over every run of all ten commands the replies are those of the spatial index. Nothing
else is kept: two reachable keyspaces that no client can tell apart by `IGET` and
`POLYGET` are the same keyspace.
-/

namespace RedisS2Geo.Guarantees
open Foundation Source Covering Store

variable {env : Environment} {K K' : Keyspace Bytes}

/-- In every run of the ten commands, with any arguments whose names have no zero bytes and
in whatever orders sets are listed, each reply and each return value is the one of the
spatial index, and the keyspace stands for its contents. -/
theorem refines_spatialIndex (env : Environment) {commands : List (Orders × Command)}
    (h : ∀ l ∈ commands, NulFreeNames l.2) :
    ∃ outcomes K, run (step env) commands emptyKeyspace = some (outcomes, K) ∧
      List.Forall₂ Gives outcomes
        (totalRun (fun l => spatialStep env l.2) commands fun _ => none).1 ∧
      Represents env K (totalRun (fun l => spatialStep env l.2) commands fun _ => none).2 :=
  (simulates_spatialStep env).run h Represents.empty

/-- A polygon is stored and a point inside it is looked up. -/
def pointSession : List (Orders × Command) :=
  [(ascending, ⟨.iset, [ascii "i"]⟩),
    (ascending, ⟨.polyset, [ascii "i", ascii "p", triangleBody]⟩),
    (ascending, ⟨.pointsearch, [ascii "i", ascii "[0,0]"]⟩)]

theorem refines_spatialIndex_point :
    ∃ outcomes K, run (step sampleEnvironment) pointSession emptyKeyspace = some (outcomes, K) ∧
      List.Forall₂ Gives outcomes (totalRun (fun l => spatialStep sampleEnvironment l.2)
        pointSession fun _ => none).1 := by
  have hnames : ∀ l ∈ pointSession, NulFreeNames l.2 := by
    simp only [pointSession, List.forall_mem_cons, NulFreeNames, names]
    decide
  obtain ⟨outcomes, K, hrun, hgives, -⟩ := refines_spatialIndex sampleEnvironment hnames
  exact ⟨outcomes, K, hrun, hgives⟩

/-! ### Nothing is hidden -/

/-- The replies of a command on two keyspaces are the same. -/
def SameReply (env : Environment) (K K' : Keyspace Bytes) (c : Command) : Prop :=
  ∀ ω, (exec env ω c K).map Prod.fst = (exec env ω c K').map Prod.fst

/-- The polygons of an index can be read with `IGET` and `POLYGET`. -/
theorem le_of_sameReply {A A' : Contents} (h : Represents env K A) (h' : Represents env K' A')
    {n : Bytes} (higet : SameReply env K K' ⟨.iget, [n]⟩)
    (hpolyget : ∀ p, NulFree p → SameReply env K K' ⟨.polyget, [n, p]⟩) {m : Polygons}
    (hA : A n = some m) : A' n = some m := by
  have hn := h.wellFormed.name hA
  have hcs := hn.cString_eq
  have hx := h.indexExists hn.1 (hcs.symm ▸ hA)
  -- the index exists on the other side
  obtain ⟨m', hA'⟩ : ∃ m', A' n = some m' := by
    cases hA' : A' n with
    | some m' => exact ⟨m', rfl⟩
    | none =>
        have hget := higet ascending
        have hx' := h'.indexAbsent hn.1 (hcs.symm ▸ hA')
        simp only [exec, getIndexCommand_exists hx, getIndexCommand_absent hx'] at hget
        cases hget
  have hx' := h'.indexExists hn.1 (hcs.symm ▸ hA')
  have hlookup : ∀ p, m'.lookup p = m.lookup p := by
    intro p
    by_cases hp : PlainName p
    · have hget := hpolyget p hp.2 ascending
      simp only [exec, getPolygonCommand_exists hx hp.1, getPolygonCommand_exists hx' hp.1,
        h.bodyAt_eq hn.1.notMem, h'.bodyAt_eq hn.1.notMem, hcs, Contents.polygons_of_some hA,
        Contents.polygons_of_some hA', Option.map_some, Option.some.injEq] at hget
      cases hm : m.lookup p <;> cases hm' : m'.lookup p <;>
        simp [hm, hm', replyWithNull, replyWithString] at hget ⊢
      exact hget.symm
    · rw [Finmap.lookup_eq_none.mpr fun hmem => hp ((h.wellFormed.polygons hA).name hmem),
        Finmap.lookup_eq_none.mpr fun hmem => hp ((h'.wellFormed.polygons hA').name hmem)]
  rw [hA', Finmap.ext_lookup hlookup]

/-- Two reachable keyspaces on which `IGET` and `POLYGET` always reply alike are equal: no
key of them is left over from anything that was deleted or overwritten. -/
theorem eq_of_sameReplies (hK : ReachableStore env K) (hK' : ReachableStore env K')
    (higet : ∀ i, NulFree i → SameReply env K K' ⟨.iget, [i]⟩)
    (hpolyget : ∀ i p, NulFree i → NulFree p → SameReply env K K' ⟨.polyget, [i, p]⟩) :
    K = K' := by
  obtain ⟨A, h⟩ := hK.represents
  obtain ⟨A', h'⟩ := hK'.represents
  have hle : ∀ n m, A n = some m → A' n = some m := fun n m hA =>
    le_of_sameReply h h' (higet n (h.wellFormed.name hA).2)
      (fun p hp => hpolyget n p (h.wellFormed.name hA).2 hp) hA
  have hge : ∀ n m, A' n = some m → A n = some m := fun n m hA =>
    le_of_sameReply h' h (fun ω => (higet n (h'.wellFormed.name hA).2 ω).symm)
      (fun p hp ω => (hpolyget n p (h'.wellFormed.name hA).2 hp ω).symm) hA
  have hsame : A = A' := by
    funext n
    cases hA : A n with
    | some m => rw [hle n m hA]
    | none =>
        cases hA' : A' n with
        | none => rfl
        | some m => rw [hge n m hA'] at hA; cases hA
  subst hsame
  exact h.unique h'

/-- An index that was created and deleted leaves the empty keyspace. -/
theorem eq_of_sameReplies_deleted :
    ∃ outcomes K, run (step sampleEnvironment) [(ascending, ⟨.iset, [ascii "i"]⟩),
        (ascending, ⟨.idel, [ascii "i"]⟩)] emptyKeyspace = some (outcomes, K) ∧
      K = emptyKeyspace := by
  have hempty : Represents sampleEnvironment emptyKeyspace fun _ => none := Represents.empty
  have hset := setIndexCommand_absent (hempty.indexAbsent plainName_i.1 rfl)
  have h₁ := hempty.create plainName_i.1.notMem plainName_i rfl
  obtain ⟨K, hdel, h₂⟩ := h₁.deleteIndexCommand_exists ascending plainName_i.1
    (Function.update_self _ _ _)
  have hrun : run (step sampleEnvironment) [(ascending, ⟨.iset, [ascii "i"]⟩),
      (ascending, ⟨.idel, [ascii "i"]⟩)] emptyKeyspace =
        some ([replyWithSimpleString "OK", replyWithLongLong 1], K) :=
    run_cons_eq_some.mpr ⟨_, _, _, hset, run_cons_eq_some.mpr ⟨_, _, _, hdel, rfl, rfl⟩, rfl⟩
  have hreach : ReachableStore sampleEnvironment K := Reachable.start.run (by
    simp only [List.forall_mem_cons, NulFreeNames, names]
    decide) hrun
  -- no index exists on either side
  have habsent : ∀ i, Accepted i → IndexAbsent K i ∧ IndexAbsent emptyKeyspace i := by
    intro i hi
    refine ⟨h₂.indexAbsent hi ?_, hempty.indexAbsent hi rfl⟩
    rw [Function.update_idem, Function.update_apply]
    split <;> rfl
  refine ⟨_, K, hrun, eq_of_sameReplies hreach Reachable.start (fun i _ ω => ?_)
    fun i p _ _ ω => ?_⟩
  · by_cases hi : Accepted i
    · obtain ⟨hx, hx'⟩ := habsent i hi
      simp only [exec, getIndexCommand_absent hx, getIndexCommand_absent hx', Option.map_some]
    · rw [exec_indexName_refused ω (.iget i) rfl hi, exec_indexName_refused ω (.iget i) rfl hi]
      rfl
  · by_cases hi : Accepted i
    · obtain ⟨hx, hx'⟩ := habsent i hi
      by_cases hp : Accepted p
      · simp only [exec, getPolygonCommand_absent hx hp, getPolygonCommand_absent hx' hp,
          Option.map_some]
      · have hn : ∃ n ∈ names ⟨.polyget, [i, p]⟩, ¬ Accepted n := ⟨p, by simp [names], hp⟩
        rw [exec_polygonName_refused ω (.polyget i p) rfl hi hn,
          exec_polygonName_refused ω (.polyget i p) rfl hi hn]
        rfl
    · rw [exec_indexName_refused ω (.polyget i p) rfl hi,
        exec_indexName_refused ω (.polyget i p) rfl hi]
      rfl

end RedisS2Geo.Guarantees
