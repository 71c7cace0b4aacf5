import RedisS2Geo.Guarantees.Logs
import RedisS2Geo.Store.Locality

/-!
# Dumps of an index

What `POLYLIST` and `POLYMGET` reply is enough to build an index up again, on the same
server or on another one. Hence every run of commands can be taken back exactly.
-/

namespace RedisS2Geo.Guarantees
open Foundation Source Store

section Definitions
variable (env : Environment) (ω : Orders)

/-- The items of the array that a command replies. -/
def arrayOf (c : Command) (K : Keyspace Bytes) : List (Option Bytes) :=
  match exec env ω c K with
  | some (⟨.array items, _⟩, _) => items
  | _ => []

/-- The names that `POLYLIST` replies, each with the body that `POLYMGET` replies for it. -/
def dump (i : Bytes) (K : Keyspace Bytes) : List (Bytes × Bytes) :=
  let polygonNames := (arrayOf env ω ⟨.polylist, [i]⟩ K).filterMap id
  let bodies := arrayOf env ω ⟨.polymget, i :: polygonNames⟩ K
  (polygonNames.zip bodies).filterMap fun e => e.2.map (Prod.mk e.1)

/-- The commands that store polygons. -/
def storing (i : Bytes) (entries : List (Bytes × Bytes)) : List Command :=
  entries.map fun e => ⟨.polyset, [i, e.1, e.2]⟩

/-- The commands that build an index up from its entries. -/
def restoring (i : Bytes) (entries : List (Bytes × Bytes)) : List Command :=
  ⟨.iset, [i]⟩ :: storing i entries

end Definitions

variable {env : Environment} {K L : Keyspace Bytes} {A : Contents} {i : Bytes} {m : Polygons}
variable {entries : List (Bytes × Bytes)} {commands : List (Orders × Command)}

/-! ### Reading an index -/

/-- A dump has the entries of the index. -/
theorem mem_dump (h : Represents env K A) (hi : PlainName i) (hA : A i = some m) (ω : Orders)
    (p b : Bytes) : (p, b) ∈ dump env ω i K ↔ m.lookup p = some b := by
  have hA' : A (cString i) = some m := hi.cString_eq.symm ▸ hA
  have hx : IndexExists K i := h.indexExists hi.1 hA'
  have hhash := h.asHash_polygons hi.1.notMem
  rw [Contents.polygons_of_some hA'] at hhash
  have hlist : arrayOf env ω ⟨.polylist, [i]⟩ K = (ω.hkeys.list m.keys).map some := by
    simp only [arrayOf, exec, listPolygonsCommand_exists ω hx hhash, replyWithArray]
  have hnames : ((ω.hkeys.list m.keys).map some).filterMap id = ω.hkeys.list m.keys := by
    rw [List.filterMap_map, Function.id_comp, List.filterMap_some]
  have hbodies : ω.hkeys.list m.keys ≠ [] →
      arrayOf env ω ⟨.polymget, i :: ω.hkeys.list m.keys⟩ K =
        (ω.hkeys.list m.keys).map fun q => m.lookup q := by
    intro hne
    have haccepted : ∀ q ∈ ω.hkeys.list m.keys, Accepted q := fun q hq =>
      ((h.wellFormed.polygons hA).name
        (Finmap.mem_keys.mp ((ω.hkeys.mem_list _ q).mp hq))).1
    simp only [arrayOf, exec, getMultiplePolygonsCommand_exists hx hne haccepted hhash,
      replyWithArray]
  have hdump : dump env ω i K =
      (ω.hkeys.list m.keys).filterMap fun q => (m.lookup q).map (Prod.mk q) := by
    rw [dump, hlist, hnames]
    by_cases hne : ω.hkeys.list m.keys = []
    · rw [hne, List.zip_nil_left, List.filterMap_nil, List.filterMap_nil]
    · rw [hbodies hne, ← List.map_prod_left_eq_zip, List.filterMap_map, Function.comp_def]
  rw [hdump, List.mem_filterMap]
  constructor
  · rintro ⟨q, -, hq⟩
    obtain ⟨b', hb', he⟩ := Option.map_eq_some_iff.mp hq
    cases he
    exact hb'
  · intro hb
    refine ⟨p, ?_, by rw [hb, Option.map_some]⟩
    rw [Enumeration.mem_list, Finmap.mem_keys]
    exact Finmap.mem_of_lookup_eq_some hb

/-! ### Building an index up -/

/-- Entries that an index may have are all stored. -/
theorem run_storing (h : Represents env K A) (hi : PlainName i) (hA : A i = some m)
    (hentries : ∀ e ∈ entries, PlainName e.1 ∧ bodyTerms env e.2 ≠ ∅)
    (hc : commands.map Prod.snd = storing i entries) :
    ∃ K', run (step env) commands K = some (entries.map fun _ => replyWithLongLong 1, K') ∧
      Represents env K' (Function.update A i
        (some (entries.foldl (fun m e => m.insert e.1 e.2) m))) := by
  induction entries generalizing commands K A m with
  | nil =>
      obtain rfl : commands = [] := List.map_eq_nil_iff.mp hc
      refine ⟨K, rfl, ?_⟩
      rw [List.foldl_nil, ← hA, Function.update_eq_self]
      exact h
  | cons e entries ih =>
      obtain ⟨l, commands, rfl, hl, htail⟩ := List.map_eq_cons_iff.mp hc
      obtain ⟨ω, c⟩ := l
      obtain rfl : c = ⟨.polyset, [i, e.1, e.2]⟩ := hl
      obtain ⟨hname, hterms⟩ := hentries e (by simp)
      have hA' : A (cString i) = some m := hi.cString_eq.symm ▸ hA
      obtain ⟨K₁, he, h₁⟩ := h.setPolygonCommand_plain ω hi.1 hA' hname hterms
      rw [hi.cString_eq] at h₁
      obtain ⟨K', hrun, h'⟩ := ih h₁ (Function.update_self _ _ _)
        (fun f hf => hentries f (by simp [hf])) htail
      refine ⟨K', run_cons_eq_some.mpr ⟨_, K₁, _, he, hrun, rfl⟩, ?_⟩
      rw [Function.update_idem] at h'
      exact h'

/-- The entries of an index build it up where it is missing. -/
theorem run_restoring (h : Represents env K A) (hi : PlainName i) (hA : A i = none)
    (hm : PolygonsWellFormed env m) (hentries : ∀ p b, (p, b) ∈ entries ↔ m.lookup p = some b)
    (hc : commands.map Prod.snd = restoring i entries) :
    ∃ K', run (step env) commands K = some (replyWithSimpleString "OK" ::
        entries.map fun _ => replyWithLongLong 1, K') ∧
      Represents env K' (Function.update A i (some m)) := by
  obtain ⟨l, commands, rfl, hl, htail⟩ := List.map_eq_cons_iff.mp hc
  obtain ⟨ω, c⟩ := l
  obtain rfl : c = ⟨.iset, [i]⟩ := hl
  have hA' : A (cString i) = none := hi.cString_eq.symm ▸ hA
  have hset := setIndexCommand_absent (h.indexAbsent hi.1 hA')
  have hcreate := h.create hi.1.notMem (hi.cString_eq.symm ▸ hi) hA'
  rw [hi.cString_eq] at hcreate
  have hgood : ∀ e ∈ entries, PlainName e.1 ∧ bodyTerms env e.2 ≠ ∅ := by
    intro e he
    have hb : m.lookup e.1 = some e.2 := (hentries e.1 e.2).mp he
    exact ⟨hm.name (Finmap.mem_of_lookup_eq_some hb), hm.terms hb⟩
  obtain ⟨K', hrun, h'⟩ := run_storing hcreate hi (Function.update_self _ _ _) hgood htail
  refine ⟨K', run_cons_eq_some.mpr ⟨_, _, _, hset, hrun, rfl⟩, ?_⟩
  rw [Function.update_idem, foldl_insert_eq hentries] at h'
  exact h'

/-! ### Moving an index -/

/-- The keys of an index are determined by its polygons. -/
theorem eqOn_region {K' : Keyspace Bytes} {A' : Contents} (h : Represents env K A)
    (h' : Represents env K' A') (hi : entityDelim ∉ i) (hA : A i = A' i) :
    Set.EqOn K K' (region i) := by
  rintro key ⟨k, rfl, rfl⟩
  rw [h.at_key k hi, h'.at_key k hi, Contents.valueAt_congr hA]

section Undo
variable (env : Environment) (ω : Orders)

/-- The reply to a command. -/
def answer (c : Command) (K : Keyspace Bytes) : Option Reply :=
  (exec env ω c K).map fun r => r.1.reply

/-- What takes a command back, as far as `IGET`, `POLYGET`, `POLYLIST` and `POLYMGET` tell
before it is run. -/
def undo (c : Command) (K : Keyspace Bytes) : List Command :=
  match c with
  | ⟨.iset, [i]⟩ =>
      if answer env ω ⟨.iget, [i]⟩ K = some .null then [⟨.idel, [i]⟩] else []
  | ⟨.idel, [i]⟩ =>
      if answer env ω ⟨.iget, [i]⟩ K = some (.simpleString "OK") then
        restoring i (dump env ω i K)
      else []
  | ⟨.polyset, [i, p, _]⟩ | ⟨.polydel, [i, p]⟩ =>
      match answer env ω ⟨.polyget, [i, p]⟩ K with
      | some (.bulkString b) => [⟨.polyset, [i, p, b]⟩]
      | some .null => [⟨.polydel, [i, p]⟩]
      | _ => []
  | _ => []

end Undo

variable {ω : Orders} {c d : Command} {p : Bytes}

/-- A refused name is answered with an error. -/
theorem answer_refused (hs : Shaped c) (hc : NulFreeNames c) (hr : ∃ n ∈ names c, Refused n) :
    ∃ text, answer env ω c K = some (.error text) := by
  obtain ⟨n, hn, href⟩ := hr
  have hbad : ∃ n ∈ names c, ¬ Accepted n :=
    ⟨n, hn, fun hacc => (accepted_iff_not_refused (hc n hn)).mp hacc href⟩
  obtain ⟨text, he, -⟩ := exec_refused env K ω hs hbad
  exact ⟨text, by rw [answer, he]; rfl⟩

/-- `IGET` tells whether an index exists. -/
theorem answer_iget (h : Represents env K A) (hi : PlainName i) :
    answer env ω ⟨.iget, [i]⟩ K =
      some (if (A i).isSome then .simpleString "OK" else .null) := by
  have hcs : cString i = i := hi.cString_eq
  cases hA : A i with
  | none =>
      have hx := h.indexAbsent hi.1 (hcs.symm ▸ hA)
      have he : exec env ω ⟨.iget, [i]⟩ K = _ := getIndexCommand_absent hx
      rw [answer, he]
      rfl
  | some m =>
      have hx := h.indexExists hi.1 (hcs.symm ▸ hA)
      have he : exec env ω ⟨.iget, [i]⟩ K = _ := getIndexCommand_exists hx
      rw [answer, he]
      rfl

/-- `POLYGET` tells the body. -/
theorem answer_polyget (h : Represents env K A) (hi : PlainName i) (hp : PlainName p) :
    answer env ω ⟨.polyget, [i, p]⟩ K =
      some (((A i).bind fun m => m.lookup p).elim .null .bulkString) := by
  have hcs : cString i = i := hi.cString_eq
  cases hA : A i with
  | none =>
      have hx := h.indexAbsent hi.1 (hcs.symm ▸ hA)
      have he : exec env ω ⟨.polyget, [i, p]⟩ K = _ := getPolygonCommand_absent hx hp.1
      rw [answer, he]
      rfl
  | some m =>
      have hx := h.indexExists hi.1 (hcs.symm ▸ hA)
      have he : exec env ω ⟨.polyget, [i, p]⟩ K = _ := getPolygonCommand_exists hx hp.1
      rw [answer, he, h.bodyAt_eq hi.1.notMem, hcs, Contents.polygons_of_some hA,
        Option.bind_some]
      cases m.lookup p <;> rfl

/-- One command leads back. -/
theorem undone {A' : Contents} {K' : Keyspace Bytes} (h : Represents env K A)
    (h' : Represents env K' A') (hd : NulFreeNames d) (he : edited env d A' = A) :
    ∃ os, run (step env) [(ω, d)] K' = some (os, K) := by
  have hnames : ∀ l ∈ [(ω, d)], NulFreeNames l.2 := by simpa using hd
  obtain ⟨os, K'', hrun, h''⟩ := h'.run hnames
  rw [List.map_cons, List.map_nil, replay_cons, replay_nil, he] at h''
  obtain rfl : K = K'' := h.unique h''
  exact ⟨os, hrun⟩

/-- A command that overwrites the last one is seen alone. -/
theorem edited_overwritten (ho : overwrites env d c = true) (A : Contents) :
    edited env d (edited env c A) = edited env d A :=
  replay_overwritten (List.mem_singleton_self d) ho A

/-- Storing the body that is there changes nothing. -/
theorem edited_polyset_self {b : Bytes} (hA : A i = some m) (hb : m.lookup p = some b) :
    edited env ⟨.polyset, [i, p, b]⟩ A = A := by
  cases he : edit env ⟨.polyset, [i, p, b]⟩ with
  | none => rw [edited_of_none he]
  | some e =>
      obtain ⟨j, f⟩ := e
      cases edit_eq_some_iff.mp he with
      | put =>
          have hm : m.insert p b = m := by
            apply Finmap.ext_lookup
            intro q
            by_cases hq : q = p
            · subst hq
              rw [Finmap.lookup_insert, hb]
            · rw [Finmap.lookup_insert_of_ne m hq]
          rw [edited_of_some he, hA, Option.map_some, hm, update_of_eq hA]

/-- Deleting what is not there changes nothing. -/
theorem edited_polydel_self (h : (A i).bind (fun m => m.lookup p) = none) :
    edited env ⟨.polydel, [i, p]⟩ A = A := by
  cases he : edit env ⟨.polydel, [i, p]⟩ with
  | none => rw [edited_of_none he]
  | some e =>
      obtain ⟨j, f⟩ := e
      cases edit_eq_some_iff.mp he with
      | remove =>
          rw [edited_of_some he]
          cases hA : A i with
          | none => rw [Option.map_none, update_of_eq hA]
          | some m =>
              rw [hA, Option.bind_some] at h
              have hmem : p ∉ m := Finmap.lookup_eq_none.mp h
              rw [Option.map_some, finmap_erase_of_notMem hmem, update_of_eq hA]

/-- A command about one polygon is taken back. -/
theorem undone_polygon {K' : Keyspace Bytes} (h : Represents env K A)
    (h' : Represents env K' (edited env c A)) (hi : NulFree i) (hp : NulFree p)
    (hc : target c = some (i, p)) (hu : undo env ω c K =
      match answer env ω ⟨.polyget, [i, p]⟩ K with
      | some (.bulkString b) => [⟨.polyset, [i, p, b]⟩]
      | some .null => [⟨.polydel, [i, p]⟩]
      | _ => []) :
    ∃ os, run (step env) ((undo env ω c K).map (Prod.mk ω)) K' = some (os, K) := by
  have hread : NulFreeNames ⟨.polyget, [i, p]⟩ := by
    simpa [NulFreeNames, names] using ⟨hi, hp⟩
  by_cases hr : Refused i ∨ Refused p
  · -- nothing was edited
    obtain ⟨text, ha⟩ : ∃ text, answer env ω ⟨.polyget, [i, p]⟩ K = some (.error text) :=
      answer_refused (.polyget i p) hread (by simpa [names] using hr)
    have he : edit env c = none := by
      cases he : edit env c with
      | none => rfl
      | some e =>
          obtain ⟨j, f⟩ := e
          obtain ⟨rfl, hp', -⟩ := agreeAway_edited (edit_eq_some_iff.mp he) hc A
          exact absurd hr (not_or.mpr ⟨(edit_eq_some_iff.mp he).not_refused, hp'⟩)
    rw [edited_of_none he] at h'
    obtain rfl : K = K' := h.unique h'
    rw [hu, ha]
    exact ⟨[], rfl⟩
  · obtain ⟨hi', hp'⟩ := not_or.mp hr
    have hpi : PlainName i := ⟨(accepted_iff_not_refused hi).mpr hi', hi⟩
    have hpp : PlainName p := ⟨(accepted_iff_not_refused hp).mpr hp', hp⟩
    rw [hu, answer_polyget h hpi hpp]
    cases hb : (A i).bind fun m => m.lookup p with
    | none =>
        have ho : overwrites env ⟨.polydel, [i, p]⟩ c = true := decide_eq_true hc
        apply undone h h' (by simpa [NulFreeNames, names] using ⟨hi, hp⟩)
        rw [edited_overwritten ho, edited_polydel_self hb]
    | some b =>
        obtain ⟨m, hA, hl⟩ := Option.bind_eq_some_iff.mp hb
        have hcover : bodyCovering env b ≠ [] :=
          bodyTerms_eq_empty_iff.not.mp ((h.wellFormed.polygons hA).terms hl)
        have ho : overwrites env ⟨.polyset, [i, p, b]⟩ c = true := by
          simp [overwrites, hc, hcover]
        apply undone h h' (by simpa [NulFreeNames, names] using ⟨hi, hp⟩)
        rw [edited_overwritten ho, edited_polyset_self hA hl]

/-- Nothing to take back. -/
theorem undone_nothing {K' : Keyspace Bytes} (h : Represents env K A)
    (h' : Represents env K' A) (hu : undo env ω c K = []) :
    ∃ os, run (step env) ((undo env ω c K).map (Prod.mk ω)) K' = some (os, K) := by
  obtain rfl : K = K' := h.unique h'
  rw [hu]
  exact ⟨[], rfl⟩

/-- A command with a refused index name is not taken back: it did nothing. -/
theorem undone_refused {K' : Keyspace Bytes} (h : Represents env K A)
    (h' : Represents env K' (edited env c A)) (hi : NulFree i) (hr : Refused i)
    (hc : edit env c = none) (hu : ∀ text, answer env ω ⟨.iget, [i]⟩ K = some (.error text) →
      undo env ω c K = []) :
    ∃ os, run (step env) ((undo env ω c K).map (Prod.mk ω)) K' = some (os, K) := by
  obtain ⟨text, ha⟩ : ∃ text, answer env ω ⟨.iget, [i]⟩ K = some (.error text) :=
    answer_refused (.iget i) (by simpa [NulFreeNames, names] using hi)
      (by simpa [names] using hr)
  rw [edited_of_none hc] at h'
  exact undone_nothing h h' (hu text ha)

/-- The creation of an index is taken back. -/
theorem undone_iset {K' : Keyspace Bytes} (h : Represents env K A)
    (h' : Represents env K' (edited env ⟨.iset, [i]⟩ A)) (hi : NulFree i) :
    ∃ os, run (step env) ((undo env ω ⟨.iset, [i]⟩ K).map (Prod.mk ω)) K' = some (os, K) := by
  by_cases hr : Refused i
  · exact undone_refused h h' hi hr (if_pos hr) fun text ha => by simp [undo, ha]
  · have hpi : PlainName i := ⟨(accepted_iff_not_refused hi).mpr hr, hi⟩
    have he : edit env ⟨.iset, [i]⟩ = some (i, fun m => some (m.getD ∅)) := if_neg hr
    have ha : answer env ω ⟨.iget, [i]⟩ K = _ := answer_iget h hpi
    cases hA : A i with
    | none =>
        have hu : undo env ω ⟨.iset, [i]⟩ K = [⟨.idel, [i]⟩] := by simp [undo, ha, hA]
        have hd : edit env ⟨.idel, [i]⟩ = some (i, fun _ => none) := if_neg hr
        have ho : overwrites env ⟨.idel, [i]⟩ ⟨.iset, [i]⟩ = true := decide_eq_true rfl
        rw [hu]
        apply undone h h' (by simpa [NulFreeNames, names] using hi)
        rw [edited_overwritten ho, edited_of_some hd, update_of_eq hA]
    | some m =>
        rw [edited_of_some he, hA, Option.getD_some, update_of_eq hA] at h'
        exact undone_nothing h h' (by simp [undo, ha, hA])

/-- The deletion of an index is taken back from its dump. -/
theorem undone_idel {K' : Keyspace Bytes} (h : Represents env K A)
    (h' : Represents env K' (edited env ⟨.idel, [i]⟩ A)) (hi : NulFree i) :
    ∃ os, run (step env) ((undo env ω ⟨.idel, [i]⟩ K).map (Prod.mk ω)) K' = some (os, K) := by
  by_cases hr : Refused i
  · exact undone_refused h h' hi hr (if_pos hr) fun text ha => by simp [undo, ha]
  · have hpi : PlainName i := ⟨(accepted_iff_not_refused hi).mpr hr, hi⟩
    have he : edit env ⟨.idel, [i]⟩ = some (i, fun _ => none) := if_neg hr
    rw [edited_of_some he] at h'
    have ha : answer env ω ⟨.iget, [i]⟩ K = _ := answer_iget h hpi
    cases hA : A i with
    | none =>
        rw [update_of_eq hA] at h'
        exact undone_nothing h h' (by simp [undo, ha, hA])
    | some m =>
        have hu : undo env ω ⟨.idel, [i]⟩ K = restoring i (dump env ω i K) := by
          simp [undo, ha, hA]
        obtain ⟨K'', hrun, h''⟩ := run_restoring h' hpi (Function.update_self _ _ _)
          (h.wellFormed.polygons hA) (mem_dump h hpi hA ω)
          (map_snd_map_mk ω (restoring i (dump env ω i K)))
        rw [Function.update_idem, update_of_eq hA] at h''
        obtain rfl : K = K'' := h.unique h''
        rw [hu]
        exact ⟨_, hrun⟩

/-- A command with a wrong number of arguments is not taken back. -/
theorem undo_of_not_shaped (h : ¬ Shaped c) : undo env ω c K = [] := by
  obtain ⟨name, args⟩ := c
  cases name with
  | iset | idel =>
      match args, h with
      | [], _ | _ :: _ :: _, _ => rfl
      | [_], h => exact absurd (by constructor) h
  | polyset =>
      match args, h with
      | [], _ | [_], _ | [_, _], _ | _ :: _ :: _ :: _ :: _, _ => rfl
      | [_, _, _], h => exact absurd (by constructor) h
  | polydel =>
      match args, h with
      | [], _ | [_], _ | _ :: _ :: _ :: _, _ => rfl
      | [_, _], h => exact absurd (by constructor) h
  | _ => rfl

/-- Every command is taken back. -/
theorem undone_step (h : Represents env K A) (ω : Orders) (hc : NulFreeNames c) :
    ∃ o K', step env (ω, c) K = some (o, K') ∧ (∃ A', Represents env K' A') ∧
      ∃ os, run (step env) ((undo env ω c K).map (Prod.mk ω)) K' = some (os, K) := by
  obtain ⟨o, K', he, -, h'⟩ := h.refines ω hc
  rw [spatialStep_snd] at h'
  refine ⟨o, K', he, ⟨_, h'⟩, ?_⟩
  by_cases hs : Shaped c
  · cases hs with
    | iset i => exact undone_iset h h' (hc i (by simp [names]))
    | idel i => exact undone_idel h h' (hc i (by simp [names]))
    | polyset i p b =>
        exact undone_polygon h h' (hc i (by simp [names])) (hc p (by simp [names])) rfl rfl
    | polydel i p =>
        exact undone_polygon h h' (hc i (by simp [names])) (hc p (by simp [names])) rfl rfl
    | _ => exact undone_nothing h h' rfl
  · rw [edited_of_none (edit_eq_none_of_not_shaped hs)] at h'
    exact undone_nothing h h' (undo_of_not_shaped hs)

/-- The commands that take a run back, each with the orders of the command it takes back. -/
def undoing (env : Environment) :
    List (Orders × Command) → Keyspace Bytes → List (Orders × Command) :=
  rollback (step env) fun l K => (undo env l.1 l.2 K).map (Prod.mk l.1)

/-- Every run can be taken back with the ten commands alone: what `IGET`, `POLYGET`,
`POLYLIST` and `POLYMGET` reply before each command is enough to write commands that lead
back to the keyspace as it was, every key of it. -/
theorem run_taken_back (hK : ReachableStore env K) (h : ∀ l ∈ commands, NulFreeNames l.2) :
    ∃ os K', run (step env) commands K = some (os, K') ∧
      ∃ os', run (step env) (undoing env commands K) K' = some (os', K) := by
  have hstep : ∀ (l : Orders × Command) (K : Keyspace Bytes), NulFreeNames l.2 →
      (∃ A, Represents env K A) → ∃ o K', step env l K = some (o, K') ∧
        (∃ A, Represents env K' A) ∧ ∃ os, run (step env)
          ((undo env l.1 l.2 K).map (Prod.mk l.1)) K' = some (os, K) := by
    rintro ⟨ω, c⟩ K hc ⟨A, hA⟩
    exact undone_step hA ω hc
  exact run_rollback hstep h hK.represents

/-- A session that ends with the deletion of its index. -/
def deletedAtLast : List Command := storedTwice ++ [⟨.idel, [ascii "i"]⟩]

theorem run_taken_back_deleted :
    ∃ os K', run (step sampleEnvironment) (deletedAtLast.map (Prod.mk ascending))
        emptyKeyspace = some (os, K') ∧
      ∃ os', run (step sampleEnvironment) (undoing sampleEnvironment
        (deletedAtLast.map (Prod.mk ascending)) emptyKeyspace) K' =
          some (os', emptyKeyspace) := by
  have hc : ∀ c ∈ deletedAtLast, ∀ n ∈ names c, NulFree n := by decide
  refine run_taken_back Reachable.start fun l hl => ?_
  obtain ⟨c, hmem, rfl⟩ := List.mem_map.mp hl
  exact hc c hmem

end RedisS2Geo.Guarantees
