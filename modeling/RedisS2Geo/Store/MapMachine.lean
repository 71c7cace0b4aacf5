import RedisS2Geo.Foundation.Machine
import RedisS2Geo.Store.Represented

/-!
# The store as a map of maps

What the eight commands without a search are for: they keep a map from index
names to maps from polygon names to bodies, and every reply is read off that
map. The module simulates this machine.

## Implementation notes

The map machine knows neither keys nor cells. Of the module it uses the verdict
on a body only, which is a parameter of the store: the parser and the coverer
decide which bodies are accepted. The texts of errors are identified.
-/

namespace RedisS2Geo.Store
open Foundation Source Covering

/-- The commands whose replies the map determines. -/
inductive MapCommand where
  | iset (indexName : Bytes)
  | iget (indexName : Bytes)
  | idel (indexName : Bytes)
  | polyset (indexName polygonName body : Bytes)
  | polyget (indexName polygonName : Bytes)
  | polymget (indexName polygonName : Bytes) (rest : List Bytes)
  | polydel (indexName polygonName : Bytes)
  | polylist (indexName : Bytes)
  deriving DecidableEq

/-- The replies of the map. -/
inductive MapReply where
  | error
  | nil
  | ok
  | integer (n : Int)
  | body (s : Bytes)
  | bodies (items : List (Option Bytes))
  | names (s : Finset Bytes)
  deriving DecidableEq

/-- The command sent to the module. -/
def MapCommand.toCommand : MapCommand → Command
  | iset i => ⟨.iset, [i]⟩
  | iget i => ⟨.iget, [i]⟩
  | idel i => ⟨.idel, [i]⟩
  | polyset i p b => ⟨.polyset, [i, p, b]⟩
  | polyget i p => ⟨.polyget, [i, p]⟩
  | polymget i p rest => ⟨.polymget, i :: p :: rest⟩
  | polydel i p => ⟨.polydel, [i, p]⟩
  | polylist i => ⟨.polylist, [i]⟩

/-- A name that is empty or has a colon. -/
def Refused (name : Bytes) : Prop := name = [] ∨ chr ':' ∈ name

instance (name : Bytes) : Decidable (Refused name) :=
  inferInstanceAs (Decidable (_ ∨ _))

/-- The names that a command gives. -/
def MapCommand.names : MapCommand → List Bytes
  | iset i | iget i | idel i | polylist i => [i]
  | polyset i p _ | polyget i p | polydel i p => [i, p]
  | polymget i p rest => i :: p :: rest

/-- The index that a command is about. -/
def MapCommand.index : MapCommand → Bytes
  | iset i | iget i | idel i | polylist i => i
  | polyset i _ _ | polyget i _ | polydel i _ => i
  | polymget i _ _ => i

/-- A body that parses to a polygon with a non-empty covering. -/
def storable (env : Environment) (body : Bytes) : Bool :=
  match parsePolygon env body with
  | none => false
  | some polygon => !(env.getCovering kMaxCells polygon).isEmpty

/-- One command on the map, all names being acceptable. -/
def mapEffect (env : Environment) (c : MapCommand) (A : Contents) : MapReply × Contents :=
  match c with
  | .iset i =>
      match A i with
      | none => (.ok, Function.update A i (some ∅))
      | some _ => (.error, A)
  | .iget i =>
      match A i with
      | none => (.nil, A)
      | some _ => (.ok, A)
  | .idel i =>
      match A i with
      | none => (.integer 0, A)
      | some _ => (.integer 1, Function.update A i none)
  | .polyset i p b =>
      match A i with
      | none => (.error, A)
      | some m =>
          if storable env b then (.integer 1, Function.update A i (some (m.insert p b)))
          else (.error, A)
  | .polyget i p => (((A i).bind fun m => m.lookup p).elim .nil .body, A)
  | .polymget i p rest => (.bodies ((p :: rest).map fun q => (A i).bind fun m => m.lookup q), A)
  | .polydel i p =>
      match A i with
      | none => (.integer 0, A)
      | some m =>
          if p ∈ m then (.integer 1, Function.update A i (some (m.erase p)))
          else (.integer 0, A)
  | .polylist i => (.names ((A i).elim ∅ fun m => m.keys), A)

/-- One command on the map. -/
def mapStep (env : Environment) (c : MapCommand) (A : Contents) : MapReply × Contents :=
  if ∃ n ∈ c.names, Refused n then (.error, A) else mapEffect env c A

/-- A reply of the module is the reply of the map; a set of names is sent as an array
with each name once. -/
def Answers (o : Outcome) : MapReply → Prop
  | .error => ∃ text, o.reply = .error text
  | .nil => o.reply = .null
  | .ok => o.reply = .simpleString "OK"
  | .integer n => o.reply = .integer n
  | .body s => o.reply = .bulkString s
  | .bodies items => o.reply = .array items
  | .names s => ∃ names : List Bytes,
      o.reply = .array (names.map some) ∧ names.Nodup ∧ names.toFinset = s

/-- An integer reply answers that integer only. -/
theorem Answers.eq_integer {r : MapReply} {n : Int} (h : Answers (replyWithLongLong n) r) :
    r = .integer n := by
  cases r with
  | integer k => simpa [Answers, replyWithLongLong, eq_comm] using h
  | _ => simp [Answers, replyWithLongLong] at h

/-! ### Names and bodies -/

theorem names_toCommand (c : MapCommand) : names c.toCommand = c.names := by
  cases c <;> rfl

theorem shaped_toCommand (c : MapCommand) : Shaped c.toCommand := by
  cases c <;> constructor

theorem MapCommand.index_mem_names (c : MapCommand) : c.index ∈ c.names := by
  cases c <;> simp [MapCommand.names, MapCommand.index]

/-- On names without zero bytes the check of the module is the one of the map. -/
theorem accepted_iff_not_refused {name : Bytes} (h : NulFree name) :
    Accepted name ↔ ¬ Refused name := by
  rw [accepted_iff, cString_eq_self h, Refused, not_or]
  rfl

theorem storable_iff {env : Environment} {body : Bytes} :
    storable env body = true ↔ bodyTerms env body ≠ ∅ := by
  rw [ne_eq, bodyTerms_eq_empty_iff, bodyCovering, storable]
  cases parsePolygon env body <;> simp [getPolygonCovering]

/-! ### The simulation -/

/-- The module under the commands of the map. -/
def mapModule (env : Environment) : Step (Keyspace Bytes) (Orders × MapCommand) Outcome :=
  fun l K => exec env l.1 l.2.toCommand K

variable {env : Environment} {K : Keyspace Bytes} {A : Contents}

/-- A command on an index that does not exist. -/
theorem Represents.exec_mapEffect_absent (h : Represents env K A) (ω : Orders)
    (c : MapCommand) (hname : ∀ n ∈ c.names, PlainName n) (hA : A c.index = none) :
    ∃ o K', exec env ω c.toCommand K = some (o, K') ∧ Answers o (mapEffect env c A).1 ∧
      Represents env K' (mapEffect env c A).2 := by
  have hplain : PlainName c.index := hname _ c.index_mem_names
  have hcs : cString c.index = c.index := hplain.cString_eq
  have hx : IndexAbsent K c.index := h.indexAbsent hplain.1 (hcs.symm ▸ hA)
  cases c with simp only [MapCommand.index] at hA hplain hcs hx
  | iset i =>
      have hcreate := h.create hplain.1.notMem (hcs.symm ▸ hplain) (hcs.symm ▸ hA)
      rw [hcs] at hcreate
      refine ⟨_, _, setIndexCommand_absent hx, ?_⟩
      simpa [mapEffect, hA, Answers, replyWithSimpleString] using hcreate
  | iget i =>
      refine ⟨_, _, getIndexCommand_absent hx, ?_⟩
      simpa [mapEffect, hA, Answers, replyWithNull] using h
  | idel i =>
      refine ⟨_, _, deleteIndexCommand_absent ω hx, ?_⟩
      simpa [mapEffect, hA, Answers, replyWithLongLong] using h
  | polyset i p b =>
      refine ⟨_, _, setPolygonCommand_absent ω hx (hname p (by simp [MapCommand.names])).1, ?_⟩
      simpa [mapEffect, hA, Answers, replyWithError] using h
  | polyget i p =>
      refine ⟨_, _, getPolygonCommand_absent hx (hname p (by simp [MapCommand.names])).1, ?_⟩
      simpa [mapEffect, hA, Answers, replyWithNull] using h
  | polymget i p rest =>
      refine ⟨_, _, getMultiplePolygonsCommand_absent hx (List.cons_ne_nil p rest) fun q hq =>
        (hname q (by simpa [MapCommand.names] using Or.inr (List.mem_cons.mp hq))).1, ?_⟩
      simpa [mapEffect, hA, Answers, replyWithArray] using h
  | polydel i p =>
      refine ⟨_, _, deletePolygonCommand_absent ω hx
        (hname p (by simp [MapCommand.names])).1, ?_⟩
      simpa [mapEffect, hA, Answers, replyWithLongLong] using h
  | polylist i =>
      refine ⟨_, _, listPolygonsCommand_absent ω hx, ?_⟩
      simpa [mapEffect, hA, Answers, replyWithArray] using h

/-- Storing a polygon in an index that exists. -/
theorem Represents.exec_polyset (h : Represents env K A) (ω : Orders) {i p : Bytes} (b : Bytes)
    {m : Polygons} (hi : PlainName i) (hp : PlainName p) (hA : A i = some m) :
    ∃ o K', exec env ω ⟨.polyset, [i, p, b]⟩ K = some (o, K') ∧
      Answers o (mapEffect env (.polyset i p b) A).1 ∧
      Represents env K' (mapEffect env (.polyset i p b) A).2 := by
  have hcs : cString i = i := hi.cString_eq
  have hA' : A (cString i) = some m := hcs.symm ▸ hA
  by_cases hb : storable env b = true
  · obtain ⟨K', he, h'⟩ := h.setPolygonCommand_plain ω hi.1 hA' hp (storable_iff.mp hb)
    rw [hcs] at h'
    refine ⟨_, K', he, ?_⟩
    simpa [mapEffect, hA, hb, Answers, replyWithLongLong] using h'
  · obtain ⟨text, -, he⟩ := setPolygonCommand_refused ω hp.1
      (not_not.mp (storable_iff.not.mp hb))
    refine ⟨_, _, he K (h.indexExists hi.1 hA'), ?_⟩
    simpa [mapEffect, hA, hb, Answers, replyWithError] using h

/-- Deleting a polygon in an index that exists. -/
theorem Represents.exec_polydel (h : Represents env K A) (ω : Orders) {i p : Bytes}
    {m : Polygons} (hi : PlainName i) (hp : PlainName p) (hA : A i = some m) :
    ∃ o K', exec env ω ⟨.polydel, [i, p]⟩ K = some (o, K') ∧
      Answers o (mapEffect env (.polydel i p) A).1 ∧
      Represents env K' (mapEffect env (.polydel i p) A).2 := by
  have hcs : cString i = i := hi.cString_eq
  have hA' : A (cString i) = some m := hcs.symm ▸ hA
  by_cases hmem : p ∈ m
  · obtain ⟨K', he, h'⟩ := h.deletePolygonCommand_mem ω hi.1 hA' hmem
    rw [hcs] at h'
    refine ⟨_, K', he, ?_⟩
    simpa [mapEffect, hA, hmem, Answers, replyWithLongLong] using h'
  · have he := h.deletePolygonCommand_notMem ω hi.1 hA' hp.1 (by rwa [hp.cString_eq])
    refine ⟨_, _, he, ?_⟩
    simpa [mapEffect, hA, hmem, Answers, replyWithLongLong] using h

/-- A command on an index that exists. -/
theorem Represents.exec_mapEffect_exists (h : Represents env K A) (ω : Orders)
    (c : MapCommand) (hname : ∀ n ∈ c.names, PlainName n) {m : Polygons}
    (hA : A c.index = some m) :
    ∃ o K', exec env ω c.toCommand K = some (o, K') ∧ Answers o (mapEffect env c A).1 ∧
      Represents env K' (mapEffect env c A).2 := by
  have hplain : PlainName c.index := hname _ c.index_mem_names
  have hcs : cString c.index = c.index := hplain.cString_eq
  have hA' : A (cString c.index) = some m := hcs.symm ▸ hA
  have hx : IndexExists K c.index := h.indexExists hplain.1 hA'
  have hhash := h.asHash_polygons hplain.1.notMem
  rw [Contents.polygons_of_some hA'] at hhash
  cases c with simp only [MapCommand.index] at hA hA' hplain hcs hx hhash
  | iset i =>
      refine ⟨_, _, setIndexCommand_exists hx, ?_⟩
      simpa [mapEffect, hA, Answers, replyWithError] using h
  | iget i =>
      refine ⟨_, _, getIndexCommand_exists hx, ?_⟩
      simpa [mapEffect, hA, Answers, replyWithSimpleString] using h
  | idel i =>
      obtain ⟨K', he, h'⟩ := h.deleteIndexCommand_exists ω hplain.1 hA'
      rw [hcs] at h'
      refine ⟨_, K', he, ?_⟩
      simpa [mapEffect, hA, Answers, replyWithLongLong] using h'
  | polyset i p b => exact h.exec_polyset ω b hplain (hname p (by simp [MapCommand.names])) hA
  | polyget i p =>
      have hp : PlainName p := hname p (by simp [MapCommand.names])
      have hb := h.bodyAt_eq hplain.1.notMem p
      rw [Contents.polygons_of_some hA'] at hb
      refine ⟨_, _, getPolygonCommand_exists hx hp.1, ?_⟩
      cases hl : m.lookup p <;>
        simpa [mapEffect, hA, hb, hl, Answers, replyWithNull, replyWithString] using h
  | polymget i p rest =>
      refine ⟨_, _, getMultiplePolygonsCommand_exists hx (List.cons_ne_nil p rest) (fun q hq =>
        (hname q (by simpa [MapCommand.names] using Or.inr (List.mem_cons.mp hq))).1) hhash, ?_⟩
      simpa [mapEffect, hA, Answers, replyWithArray] using h
  | polydel i p => exact h.exec_polydel ω hplain (hname p (by simp [MapCommand.names])) hA
  | polylist i =>
      refine ⟨_, _, listPolygonsCommand_exists ω hx hhash, ?_⟩
      refine ⟨⟨_, rfl, ω.hkeys.nodup _, ?_⟩, h⟩
      simpa [hA] using enumeration_toFinset ω.hkeys m.keys

/-- Every command of the map whose names have no zero bytes is simulated. -/
theorem exec_simulates (env : Environment) :
    Simulates (mapModule env) (fun l => mapStep env l.2) (fun l => ∀ n ∈ l.2.names, NulFree n)
      (Represents env) Answers := by
  rintro ⟨ω, c⟩ K A hnul h
  by_cases hr : ∃ n ∈ c.names, Refused n
  · obtain ⟨n, hn, href⟩ := hr
    obtain ⟨text, he, -⟩ := exec_refused env K ω (shaped_toCommand c)
      ⟨n, names_toCommand c ▸ hn, fun hacc => (accepted_iff_not_refused (hnul n hn)).mp hacc href⟩
    refine ⟨_, K, he, ?_⟩
    have href' : ∃ n ∈ c.names, Refused n := ⟨n, hn, href⟩
    simp only [mapStep, if_pos href']
    exact ⟨⟨text, rfl⟩, h⟩
  · have hname : ∀ n ∈ c.names, PlainName n := fun n hn =>
      ⟨(accepted_iff_not_refused (hnul n hn)).mpr fun href => hr ⟨n, hn, href⟩, hnul n hn⟩
    simp only [mapStep, if_neg hr]
    cases hA : A c.index with
    | none => exact h.exec_mapEffect_absent ω c hname hA
    | some m => exact h.exec_mapEffect_exists ω c hname hA

/-- The run of one simulated command, seen from its reply and its next keyspace. -/
theorem Represents.of_exec {o : Outcome} {K' : Keyspace Bytes} (h : Represents env K A)
    (ω : Orders) (c : MapCommand) (hc : ∀ n ∈ c.names, NulFree n)
    (he : exec env ω c.toCommand K = some (o, K')) :
    Answers o (mapStep env c A).1 ∧ Represents env K' (mapStep env c A).2 := by
  obtain ⟨o', K'', he', ho, h'⟩ := exec_simulates env (ω, c) K A hc h
  obtain ⟨rfl, rfl⟩ : o = o' ∧ K' = K'' := by simpa [mapModule, he] using he'
  exact ⟨ho, h'⟩

/-! ### What the map keeps -/

variable {i p b : Bytes} {m : Polygons}

/-- After a deletion there is no body, whether the name was acceptable or not. -/
theorem mapStep_polydel (hwf : A.WellFormed env) (hi : ¬ Refused i) (hp : NulFree p)
    (hA : A i = some m) :
    ∃ m', (mapStep env (.polydel i p) A).2 i = some m' ∧ m'.lookup p = none := by
  by_cases href : Refused p
  · have hnotMem : p ∉ m := fun hmem =>
      (accepted_iff_not_refused hp).mp ((hwf.polygons hA).name hmem).1 href
    exact ⟨m, by simp [mapStep, MapCommand.names, href, hA], Finmap.lookup_eq_none.mpr hnotMem⟩
  · by_cases hmem : p ∈ m
    · exact ⟨m.erase p, by simp [mapStep, MapCommand.names, hi, href, mapEffect, hA, hmem],
        Finmap.lookup_erase p m⟩
    · exact ⟨m, by simp [mapStep, MapCommand.names, hi, href, mapEffect, hA, hmem],
        Finmap.lookup_eq_none.mpr hmem⟩

/-- After an acknowledged write the body is the written one. -/
theorem mapStep_polyset (h : (mapStep env (.polyset i p b) A).1 = .integer 1) :
    ∃ m', (mapStep env (.polyset i p b) A).2 i = some m' ∧ m'.lookup p = some b := by
  by_cases hr : ∃ n ∈ (MapCommand.polyset i p b).names, Refused n
  · simp [mapStep, if_pos hr] at h
  · simp only [mapStep, if_neg hr, mapEffect] at h ⊢
    cases hA : A i with
    | none => simp [hA] at h
    | some m =>
        by_cases hb : storable env b = true
        · exact ⟨m.insert p b, by simp [hb], Finmap.lookup_insert m⟩
        · simp [hA, hb] at h

/-- After a deletion and a recreation the index is empty. -/
theorem mapStep_idel_iset (hi : ¬ Refused i) (hA : A i = some m) :
    (mapStep env (.iset i) (mapStep env (.idel i) A).2).2 i = some ∅ := by
  simp [mapStep, MapCommand.names, hi, mapEffect, hA]

end RedisS2Geo.Store
