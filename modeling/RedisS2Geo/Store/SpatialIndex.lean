import RedisS2Geo.Covering.Regions
import RedisS2Geo.Store.Runs

/-!
# The module as a spatial index

What all ten commands are for: named indexes of named polygons, and searches that
compare regions. Every reply is read off this map, error texts and return values
included; only the order in which names are listed is left open.

## Implementation notes

The spatial index knows neither keys nor cell terms. It takes the parsed polygons and
their coverings from the environment, and it is not executable, since it compares sets
of leaf cells.
-/

namespace RedisS2Geo.Store
open Foundation Source Covering

/-- The reply of the spatial index: an outcome, or a set of names in any order. -/
inductive IndexReply where
  | outcome (o : Outcome)
  | listing (names : Finset Bytes)

/-- The outcome of a handler gives a reply. -/
def Gives (o : Outcome) : IndexReply → Prop
  | .outcome o' => o = o'
  | .listing s => ∃ names : List Bytes,
      o = replyWithArray (names.map some) ∧ names.Nodup ∧ names.toFinset = s

section Machine
variable (env : Environment)

/-- The polygons of an index whose body covers something that passes a test. -/
noncomputable def Polygons.select (m : Polygons) (test : List S2CellId → Prop) : Finset Bytes :=
  open Classical in
  m.keys.filter fun p => ∃ b, m.lookup p = some b ∧ test (bodyCovering env b)

/-- A body that parses and covers something is accepted. -/
def accepting (body : Bytes) (A : Contents) (effect : IndexReply × Contents) :
    IndexReply × Contents :=
  if parsePolygon env body = none then (.outcome (replyWithError "invalid polygon"), A)
  else if bodyCovering env body = [] then
    (.outcome (replyWithError "empty cell union for a given polygon"), A)
  else effect

/-- One command on the spatial index, all names being good. -/
noncomputable def spatialEffect (c : Command) (A : Contents) : IndexReply × Contents :=
  match c with
  | ⟨.iset, [i]⟩ =>
      match A i with
      | none => (.outcome (replyWithSimpleString "OK"), Function.update A i (some ∅))
      | some _ => (.outcome (replyWithError "index already exists"), A)
  | ⟨.iget, [i]⟩ =>
      match A i with
      | none => (.outcome replyWithNull, A)
      | some _ => (.outcome (replyWithSimpleString "OK"), A)
  | ⟨.idel, [i]⟩ =>
      match A i with
      | none => (.outcome (replyWithLongLong 0), A)
      | some _ => (.outcome (replyWithLongLong 1), Function.update A i none)
  | ⟨.polyset, [i, p, b]⟩ =>
      match A i with
      | none => (.outcome (replyWithError "invalid index"), A)
      | some m => accepting env b A
          (.outcome (replyWithLongLong 1), Function.update A i (some (m.insert p b)))
  | ⟨.polyget, [i, p]⟩ =>
      (.outcome (((A i).bind fun m => m.lookup p).elim replyWithNull replyWithString), A)
  | ⟨.polymget, i :: p :: rest⟩ =>
      (.outcome (replyWithArray ((p :: rest).map fun q => (A i).bind fun m => m.lookup q)), A)
  | ⟨.polydel, [i, p]⟩ =>
      match A i with
      | none => (.outcome (replyWithLongLong 0), A)
      | some m =>
          if p ∈ m then
            (.outcome (replyWithLongLong 1), Function.update A i (some (m.erase p)))
          else (.outcome (replyWithLongLong 0), A)
  | ⟨.polylist, [i]⟩ => (.listing (A.polygons i).keys, A)
  | ⟨.polysearch, [i, q]⟩ =>
      match A i with
      | none => (.outcome (replyWithError "invalid index"), A)
      | some m => accepting env q A
          (.listing (m.select env fun cells => Overlaps cells (bodyCovering env q)), A)
  | ⟨.pointsearch, [i, q]⟩ =>
      match A i with
      | none => (.outcome (replyWithError "invalid index"), A)
      | some m =>
          match parseLatLng env q with
          | none => (.outcome (replyWithError "invalid point"), A)
          | some point =>
              (.listing (m.select env fun cells =>
                ↑(env.cellIdOfPoint (env.toPoint point)) ∈ innerRegion cells), A)
  | _ => (.outcome wrongArity, A)

/-- One command on the spatial index: the number of arguments and the names are checked
first, the name of the index before the names of polygons. -/
noncomputable def spatialStep (c : Command) (A : Contents) : IndexReply × Contents :=
  open Classical in
  if ¬ Shaped c then (.outcome wrongArity, A)
  else if ∃ i, c.args.head? = some i ∧ Refused i then
    (.outcome (replyWithError "invalid index name"), A)
  else if ∃ n ∈ names c, Refused n then
    (.outcome (replyWithError "invalid polygon name"), A)
  else spatialEffect env c A

end Machine

variable {env : Environment} {K : Keyspace Bytes} {A : Contents} {ω : Orders} {c : Command}
variable {i p b : Bytes} {m : Polygons}

/-- The module gives the reply of the spatial index and goes to its contents. -/
def Refines (env : Environment) (ω : Orders) (c : Command) (K : Keyspace Bytes)
    (r : IndexReply × Contents) : Prop :=
  ∃ o K', exec env ω c K = some (o, K') ∧ Gives o r.1 ∧ Represents env K' r.2

theorem refines_outcome {o : Outcome} {K' : Keyspace Bytes} {A' : Contents}
    (he : exec env ω c K = some (o, K')) (h' : Represents env K' A') :
    Refines env ω c K (.outcome o, A') :=
  ⟨o, K', he, rfl, h'⟩

/-- A listing of a set in the order of the caller gives this set. -/
theorem refines_listing {e : Enumeration Bytes} {s s' : Finset Bytes} (h : Represents env K A)
    (he : exec env ω c K = some (replyWithArray ((e.list s).map some), K))
    (hs : ∀ p, p ∈ s ↔ p ∈ s') : Refines env ω c K (.listing s', A) := by
  refine ⟨_, K, he, ⟨e.list s, rfl, e.nodup s, ?_⟩, h⟩
  rw [enumeration_toFinset]
  exact Finset.ext hs

theorem mem_select {test : List S2CellId → Prop} :
    p ∈ m.select env test ↔ ∃ b, m.lookup p = some b ∧ test (bodyCovering env b) := by
  classical
  rw [Polygons.select, Finset.mem_filter, Finmap.mem_keys, and_iff_right_iff_imp]
  rintro ⟨b, hb, -⟩
  exact Finmap.mem_iff.mpr ⟨b, hb⟩

/-! ### Bodies that are refused -/

theorem setPolygonCommand_unparsed (hx : IndexExists K i) (hp : Accepted p)
    (hb : parsePolygon env b = none) :
    setPolygonCommand env ω [i, p, b] K = some (replyWithError "invalid polygon", K) := by
  have hp' : validateEntityName p = .ok () := hp
  simp [setPolygonCommand, hx.validateEntityName_eq, hx.validateIndex_eq, hp', hb]

theorem setPolygonCommand_uncovered (hx : IndexExists K i) (hp : Accepted p)
    (hb : parsePolygon env b ≠ none) (hc : bodyCovering env b = []) :
    setPolygonCommand env ω [i, p, b] K =
      some (replyWithError "empty cell union for a given polygon", K) := by
  have hp' : validateEntityName p = .ok () := hp
  obtain ⟨polygon, hparse⟩ := Option.ne_none_iff_exists'.mp hb
  have hterms := bodyTerms_eq_empty_iff.mpr hc
  rw [bodyTerms, hparse] at hterms
  simp [setPolygonCommand, hx.validateEntityName_eq, hx.validateIndex_eq, hp', hparse, hterms]

/-! ### The refinement -/

namespace Represents

theorem refines_polyset (h : Represents env K A) (hi : PlainName i) (hp : PlainName p)
    (hA : A i = some m) :
    Refines env ω ⟨.polyset, [i, p, b]⟩ K (spatialEffect env ⟨.polyset, [i, p, b]⟩ A) := by
  have hA' : A (cString i) = some m := hi.cString_eq.symm ▸ hA
  have hx := h.indexExists hi.1 hA'
  simp only [spatialEffect, hA, accepting]
  split_ifs with hb hc
  · exact refines_outcome (setPolygonCommand_unparsed hx hp.1 hb) h
  · exact refines_outcome (setPolygonCommand_uncovered hx hp.1 hb hc) h
  · obtain ⟨K', he, h'⟩ := h.setPolygonCommand_plain ω hi.1 hA' hp
      (bodyTerms_eq_empty_iff.not.mpr hc)
    rw [hi.cString_eq] at h'
    exact refines_outcome he h'

theorem refines_polydel (h : Represents env K A) (hi : PlainName i) (hp : PlainName p)
    (hA : A i = some m) :
    Refines env ω ⟨.polydel, [i, p]⟩ K (spatialEffect env ⟨.polydel, [i, p]⟩ A) := by
  have hA' : A (cString i) = some m := hi.cString_eq.symm ▸ hA
  simp only [spatialEffect, hA]
  split_ifs with hmem
  · obtain ⟨K', he, h'⟩ := h.deletePolygonCommand_mem ω hi.1 hA' hmem
    rw [hi.cString_eq] at h'
    exact refines_outcome he h'
  · have he := h.deletePolygonCommand_notMem ω hi.1 hA' hp.1 (by rwa [hp.cString_eq])
    exact refines_outcome he h

theorem refines_polysearch (h : Represents env K A) (hi : PlainName i) (hA : A i = some m) :
    Refines env ω ⟨.polysearch, [i, b]⟩ K (spatialEffect env ⟨.polysearch, [i, b]⟩ A) := by
  have hA' : A (cString i) = some m := hi.cString_eq.symm ▸ hA
  have hx := h.indexExists hi.1 hA'
  simp only [spatialEffect, hA, accepting]
  split_ifs with hb hc
  · exact refines_outcome (searchPolygonCommand_unparsed ω hx hb) h
  · obtain ⟨polygon, hparse⟩ := Option.ne_none_iff_exists'.mp hb
    rw [bodyCovering, hparse] at hc
    exact refines_outcome (searchPolygonCommand_uncovered ω hx hparse
      (indexPolygonForOverlapTest_eq_empty_iff.mpr hc)) h
  · obtain ⟨polygon, hparse⟩ := Option.ne_none_iff_exists'.mp hb
    rw [bodyCovering, hparse] at hc
    obtain ⟨s, he, hmem⟩ := h.searchPolygonCommand_eq ω hi.1 hA' hparse hc
    refine refines_listing h he fun p => ?_
    rw [hmem, mem_select]
    cases hl : m.lookup p with
    | none => simp [termsOf, hl]
    | some body =>
        simp only [termsOf_of_lookup hl, bodyTerms, indexPolygon_meets_iff, overlaps_iff,
          Option.some.injEq, exists_eq_left', bodyCovering, hparse]

theorem refines_pointsearch (h : Represents env K A) (hi : PlainName i) (hA : A i = some m) :
    Refines env ω ⟨.pointsearch, [i, b]⟩ K (spatialEffect env ⟨.pointsearch, [i, b]⟩ A) := by
  have hA' : A (cString i) = some m := hi.cString_eq.symm ▸ hA
  have hx := h.indexExists hi.1 hA'
  simp only [spatialEffect, hA]
  cases hb : parseLatLng env b with
  | none => exact refines_outcome (searchPointCommand_unparsed ω hx hb) h
  | some point =>
      obtain ⟨s, he, hmem⟩ := h.searchPointCommand_eq ω hi.1 hA' hb
      refine refines_listing h he fun p => ?_
      rw [hmem, mem_select]
      cases hl : m.lookup p with
      | none => simp [termsOf, hl]
      | some body =>
          simp only [termsOf_of_lookup hl, bodyTerms, indexPolygon_meets_point_iff,
            mem_innerRegion (env.cellIdOfPoint (env.toPoint point)).2, Option.some.injEq,
            exists_eq_left', bodyCovering]

/-- A command on an index that does not exist. -/
theorem refines_absent (h : Represents env K A) (hs : Shaped c)
    (hname : ∀ n ∈ names c, PlainName n) (hi : c.args.head? = some i) (hA : A i = none) :
    Refines env ω c K (spatialEffect env c A) := by
  have hplain : PlainName i := by
    cases hs <;> obtain rfl := Option.some.inj hi <;> exact hname _ (by simp [names])
  have hcs : cString i = i := hplain.cString_eq
  have hx : IndexAbsent K i := h.indexAbsent hplain.1 (hcs.symm ▸ hA)
  cases hs <;> obtain rfl := Option.some.inj hi <;> simp only [spatialEffect, hA]
  case iset =>
    have hcreate := h.create hplain.1.notMem (hcs.symm ▸ hplain) (hcs.symm ▸ hA)
    rw [hcs] at hcreate
    exact refines_outcome (setIndexCommand_absent hx) hcreate
  case iget => exact refines_outcome (getIndexCommand_absent hx) h
  case idel => exact refines_outcome (deleteIndexCommand_absent ω hx) h
  case polyset p b =>
    exact refines_outcome (setPolygonCommand_absent ω hx (hname p (by simp [names])).1) h
  case polyget p =>
    exact refines_outcome (getPolygonCommand_absent hx (hname p (by simp [names])).1) h
  case polymget p rest =>
    exact refines_outcome (getMultiplePolygonsCommand_absent hx (List.cons_ne_nil p rest)
      fun q hq => (hname q (List.mem_cons_of_mem _ hq)).1) h
  case polydel p =>
    exact refines_outcome (deletePolygonCommand_absent ω hx (hname p (by simp [names])).1) h
  case polylist =>
    refine ⟨_, K, listPolygonsCommand_absent ω hx, ⟨[], rfl, List.nodup_nil, ?_⟩, h⟩
    simp [Contents.polygons_of_none hA]
  case polysearch b => exact refines_outcome (searchPolygonCommand_absent ω hx) h
  case pointsearch b => exact refines_outcome (searchPointCommand_absent ω hx) h

/-- A command on an index that exists. -/
theorem refines_exists (h : Represents env K A) (hs : Shaped c)
    (hname : ∀ n ∈ names c, PlainName n) (hi : c.args.head? = some i) (hA : A i = some m) :
    Refines env ω c K (spatialEffect env c A) := by
  have hplain : PlainName i := by
    cases hs <;> obtain rfl := Option.some.inj hi <;> exact hname _ (by simp [names])
  have hcs : cString i = i := hplain.cString_eq
  have hA' : A (cString i) = some m := hcs.symm ▸ hA
  have hx : IndexExists K i := h.indexExists hplain.1 hA'
  have hhash := h.asHash_polygons hplain.1.notMem
  rw [Contents.polygons_of_some hA'] at hhash
  cases hs <;> obtain rfl := Option.some.inj hi
  case polyset p b => exact h.refines_polyset hplain (hname p (by simp [names])) hA
  case polydel p => exact h.refines_polydel hplain (hname p (by simp [names])) hA
  case polysearch b => exact h.refines_polysearch hplain hA
  case pointsearch b => exact h.refines_pointsearch hplain hA
  all_goals simp only [spatialEffect, hA]
  case iset => exact refines_outcome (setIndexCommand_exists hx) h
  case iget => exact refines_outcome (getIndexCommand_exists hx) h
  case idel =>
    obtain ⟨K', he, h'⟩ := h.deleteIndexCommand_exists ω hplain.1 hA'
    rw [hcs] at h'
    exact refines_outcome he h'
  case polyget p =>
    have hb := h.bodyAt_eq hplain.1.notMem p
    rw [Contents.polygons_of_some hA'] at hb
    have he := getPolygonCommand_exists hx (hname p (by simp [names])).1
    rw [hb] at he
    exact refines_outcome he h
  case polymget p rest =>
    exact refines_outcome (getMultiplePolygonsCommand_exists hx (List.cons_ne_nil p rest)
      (fun q hq => (hname q (List.mem_cons_of_mem _ hq)).1) hhash) h
  case polylist =>
    rw [Contents.polygons_of_some hA]
    exact refines_listing h (listPolygonsCommand_exists ω hx hhash) fun p => Iff.rfl

/-- Every command whose names have no zero bytes. -/
theorem refines (h : Represents env K A) (ω : Orders) (hc : NulFreeNames c) :
    Refines env ω c K (spatialStep env c A) := by
  classical
  by_cases hs : Shaped c
  · obtain ⟨i, hi, hmem⟩ : ∃ i, c.args.head? = some i ∧ i ∈ names c := by
      cases hs <;> exact ⟨_, rfl, by simp [names]⟩
    have hrefused : ∀ n ∈ names c, (¬ Accepted n ↔ Refused n) := fun n hn =>
      not_iff_comm.mp (accepted_iff_not_refused (hc n hn)).symm
    rw [spatialStep, if_neg (not_not.mpr hs)]
    split_ifs with hindex hpolygon
    · obtain ⟨j, hj, href⟩ := hindex
      obtain rfl := Option.some.inj (hi.symm.trans hj)
      exact refines_outcome
        (exec_indexName_refused ω hs hi ((hrefused i hmem).mpr href)) h
    · have hacc : Accepted i := by
        by_contra hacc
        exact hindex ⟨i, hi, (hrefused i hmem).mp hacc⟩
      obtain ⟨n, hn, href⟩ := hpolygon
      exact refines_outcome
        (exec_polygonName_refused ω hs hi hacc ⟨n, hn, (hrefused n hn).mpr href⟩) h
    · have hname : ∀ n ∈ names c, PlainName n := by
        intro n hn
        refine ⟨?_, hc n hn⟩
        by_contra hacc
        exact hpolygon ⟨n, hn, (hrefused n hn).mp hacc⟩
      cases hA : A i with
      | none => exact h.refines_absent hs hname hi hA
      | some m => exact h.refines_exists hs hname hi hA
  · rw [spatialStep, if_pos hs]
    exact refines_outcome (exec_wrongArity ω hs) h

end Represents

/-- The module simulates the spatial index, command by command. -/
theorem simulates_spatialStep (env : Environment) :
    Simulates (step env) (fun l => spatialStep env l.2) (fun l => NulFreeNames l.2)
      (Represents env) Gives :=
  fun l _ _ hl h => h.refines l.1 hl

end RedisS2Geo.Store
