import RedisS2Geo.Store.Edits

/-!
# Logs of commands

Commands may be delivered more than once, a log may be compacted, and replicas that list
their sets in other orders may run it: they all end in the same keyspace.
-/

namespace RedisS2Geo.Guarantees
open Foundation Source Store

variable {env : Environment} {K : Keyspace Bytes}

/-! ### Repeated delivery -/

/-- A client that repeats its commands until it sees their replies does no harm: when every
command is delivered once or several times in a row, in whatever orders sets are listed,
the run ends in the same keyspace. -/
theorem redelivery_harmless (hK : ReachableStore env K)
    {commands deliveries : List (Orders × Command)} (h : ∀ l ∈ commands, NulFreeNames l.2)
    (h' : Redelivers (commands.map Prod.snd) (deliveries.map Prod.snd)) :
    ∃ os os' K', run (step env) commands K = some (os, K') ∧
      run (step env) deliveries K = some (os', K') := by
  obtain ⟨A, hA⟩ := hK.represents
  have hdeliveries : ∀ l ∈ deliveries, NulFreeNames l.2 := by
    intro l hl
    obtain ⟨k, hk, he⟩ := List.mem_map.mp (h'.subset (List.mem_map_of_mem hl))
    exact he ▸ h k hk
  exact hA.run_eq h hdeliveries (h'.replay_eq edited_idem A).symm

/-- A polygon is stored, read and stored again. -/
def storedTwice : List Command :=
  [⟨.iset, [ascii "i"]⟩, ⟨.polyset, [ascii "i", ascii "p", triangleBody]⟩,
    ⟨.polyget, [ascii "i", ascii "p"]⟩, ⟨.polyset, [ascii "i", ascii "p", holeBody]⟩]

/-- All listings the other way round. -/
def descending : Orders :=
  let reversed (e : Enumeration Bytes) : Enumeration Bytes :=
    ⟨fun s => (e.list s).reverse, fun s => List.nodup_reverse.mpr (e.nodup s), fun s a => by
      simp⟩
  ⟨reversed ascending.unorderedSet, reversed ascending.hkeys,
    fun key => reversed (ascending.smembers key), reversed ascending.sunion⟩

theorem nulFreeNames_storedTwice (ω : Orders) :
    ∀ l ∈ storedTwice.map (Prod.mk ω), NulFreeNames l.2 := by
  have hc : ∀ c ∈ storedTwice, ∀ n ∈ names c, NulFree n := by decide
  intro l hl
  obtain ⟨c, hmem, rfl⟩ := List.mem_map.mp hl
  exact hc c hmem

theorem map_snd_map_mk (ω : Orders) (commands : List Command) :
    (commands.map (Prod.mk ω)).map Prod.snd = commands := by
  rw [List.map_map, Function.comp_def, List.map_id']

/-- Every command of the session is delivered twice. -/
theorem redelivery_harmless_twice :
    ∃ os os' K', run (step sampleEnvironment) (storedTwice.map (Prod.mk ascending))
        emptyKeyspace = some (os, K') ∧
      run (step sampleEnvironment)
        ((storedTwice.flatMap fun c => [c, c]).map (Prod.mk descending)) emptyKeyspace =
          some (os', K') := by
  refine redelivery_harmless Reachable.start (nulFreeNames_storedTwice ascending) ?_
  rw [map_snd_map_mk, map_snd_map_mk]
  exact .again (.once (.again (.once (.again (.once (.again (.once .nil)))))))

/-! ### Replicas -/

/-- The same outcome up to the order of the names in a listing. -/
def SameUpToOrder (o o' : Outcome) : Prop :=
  o = o' ∨ ∃ names names' : List Bytes, o = replyWithArray (names.map some) ∧
    o' = replyWithArray (names'.map some) ∧ names.Perm names'

theorem sameUpToOrder_of_gives {o o' : Outcome} {r : IndexReply} (h : Gives o r)
    (h' : Gives o' r) : SameUpToOrder o o' := by
  cases r with
  | outcome r => exact Or.inl (Eq.trans h (Eq.symm h'))
  | listing s =>
      obtain ⟨names, rfl, hnodup, hs⟩ := h
      obtain ⟨names', rfl, hnodup', hs'⟩ := h'
      refine Or.inr ⟨names, names', rfl, rfl, ?_⟩
      exact List.perm_of_nodup_nodup_toFinset_eq hnodup hnodup' (hs.trans hs'.symm)

theorem replicas_of_represents {A : Contents} (hA : Represents env K A)
    {commands commands' : List (Orders × Command)} (h : ∀ l ∈ commands, NulFreeNames l.2)
    (hsame : commands.map Prod.snd = commands'.map Prod.snd) :
    ∃ os os' K', run (step env) commands K = some (os, K') ∧
      run (step env) commands' K = some (os', K') ∧ List.Forall₂ SameUpToOrder os os' := by
  induction commands generalizing commands' K A with
  | nil =>
      obtain rfl : commands' = [] := List.map_eq_nil_iff.mp hsame.symm
      exact ⟨[], [], K, rfl, rfl, .nil⟩
  | cons l commands ih =>
      obtain ⟨ω, c⟩ := l
      obtain ⟨l', commands', rfl, hl, htail⟩ := List.map_eq_cons_iff.mp hsame.symm
      obtain ⟨ω', c'⟩ := l'
      obtain rfl : c' = c := hl
      have hc : NulFreeNames c' := h (ω, c') (by simp)
      obtain ⟨o, K₁, he, hgives, h₁⟩ := hA.refines ω hc
      obtain ⟨o', K₂, he', hgives', h₂⟩ := hA.refines ω' hc
      -- the contents do not depend on the orders, hence the keyspaces do not
      obtain rfl : K₁ = K₂ := h₁.unique h₂
      obtain ⟨os, os', K', hrun, hrun', hall⟩ :=
        ih h₁ (fun k hk => h k (by simp [hk])) htail.symm
      exact ⟨o :: os, o' :: os', K', run_cons_eq_some.mpr ⟨o, K₁, os, he, hrun, rfl⟩,
        run_cons_eq_some.mpr ⟨o', K₁, os', he', hrun', rfl⟩,
        .cons (sameUpToOrder_of_gives hgives hgives') hall⟩

/-- Two servers that run the same commands agree, in whatever orders their sets and hashes
are listed: the keyspaces stay equal and the replies differ in the order of listings only. -/
theorem replicas_agree (hK : ReachableStore env K) {commands commands' : List (Orders × Command)}
    (h : ∀ l ∈ commands, NulFreeNames l.2)
    (hsame : commands.map Prod.snd = commands'.map Prod.snd) :
    ∃ os os' K', run (step env) commands K = some (os, K') ∧
      run (step env) commands' K = some (os', K') ∧ List.Forall₂ SameUpToOrder os os' := by
  obtain ⟨A, hA⟩ := hK.represents
  exact replicas_of_represents hA h hsame

theorem replicas_agree_descending :
    ∃ os os' K', run (step sampleEnvironment) (storedTwice.map (Prod.mk ascending))
        emptyKeyspace = some (os, K') ∧
      run (step sampleEnvironment) (storedTwice.map (Prod.mk descending)) emptyKeyspace =
        some (os', K') ∧ List.Forall₂ SameUpToOrder os os' := by
  refine replicas_agree Reachable.start (nulFreeNames_storedTwice ascending) ?_
  rw [map_snd_map_mk, map_snd_map_mk]

/-! ### Compaction -/

/-- The polygon that a command stores or deletes. -/
def target : Command → Option (Bytes × Bytes)
  | ⟨.polyset, [i, p, _]⟩ | ⟨.polydel, [i, p]⟩ => some (i, p)
  | _ => none

/-- Whatever the second command did is gone after the first one: an index is deleted, or a
polygon is stored again or deleted. -/
def overwrites (env : Environment) (d c : Command) : Bool :=
  match d with
  | ⟨.idel, [i]⟩ => c.args.head? = some i
  | ⟨.polyset, [i, p, b]⟩ => target c = some (i, p) && !(bodyCovering env b).isEmpty
  | ⟨.polydel, [i, p]⟩ => target c = some (i, p)
  | _ => false

/-- A command can be spared when it edits nothing or a later one overwrites it. -/
def spared (env : Environment) (c : Command) (log : List Command) : Bool :=
  (edit env c).isNone || log.any fun d => overwrites env d c

/-- An edit of an index shows in this index only. -/
theorem agreeOff_edited {c : Command} {i : Bytes} {f : Option Polygons → Option Polygons}
    (h : Edits env c i f) (A : Contents) : AgreeOff i (edited env c A) A :=
  fun _ hj => h.edited_apply_of_ne hj A

/-- Storing or deleting a polygon shows in this polygon only. -/
theorem agreeAway_edited {c : Command} {i j p : Bytes} {f : Option Polygons → Option Polygons}
    (h : Edits env c j f) (hc : target c = some (i, p)) (A : Contents) :
    j = i ∧ ¬ Refused p ∧ AgreeAway i p (edited env c A) A := by
  have hoff := agreeOff_edited h A
  have hself : edited env c A j = f (A j) := by rw [h.edited_eq, Function.update_self]
  cases h with
  | create | delete => cases hc
  | put hi hp hb =>
      obtain ⟨rfl, rfl⟩ := Prod.mk.inj (Option.some.inj hc)
      refine ⟨rfl, hp, hoff, ?_⟩
      rw [hself, Option.map_map]
      exact Option.map_congr fun m _ => erase_insert_self m _ _
  | remove hi hp =>
      obtain ⟨rfl, rfl⟩ := Prod.mk.inj (Option.some.inj hc)
      refine ⟨rfl, hp, hoff, ?_⟩
      rw [hself, Option.map_map]
      exact Option.map_congr fun m _ => finmap_erase_of_notMem Finmap.notMem_erase_self

/-- What a command did is not seen behind a log with a command that overwrites it. -/
theorem replay_overwritten {c d : Command} {log : List Command} (hd : d ∈ log)
    (ho : overwrites env d c = true) (A : Contents) :
    replay (edited env) log (edited env c A) = replay (edited env) log A := by
  cases he : edit env c with
  | none => rw [edited_of_none he]
  | some e =>
      obtain ⟨j, f⟩ := e
      have hc : Edits env c j f := edit_eq_some_iff.mp he
      unfold overwrites at ho
      split at ho
      · rename_i i
        obtain rfl : j = i := Option.some.inj (hc.head.symm.trans (of_decide_eq_true ho))
        exact replay_merged (fun c _ _ h => h.keep c) (fun _ _ h => h.merged hc.not_refused) hd
          (agreeOff_edited hc A)
      · rename_i i p b
        rw [Bool.and_eq_true, decide_eq_true_eq] at ho
        obtain ⟨rfl, hp, haway⟩ := agreeAway_edited hc ho.1 A
        have hb : bodyCovering env b ≠ [] := by simpa using ho.2
        refine replay_merged (fun c _ _ h => h.keep c) (fun _ _ h => ?_) hd haway
        refine h.merged (.put hc.not_refused hp hb) fun x => ?_
        rw [Option.map_map]
        exact Option.map_congr fun m _ => (insert_erase_self m p b).symm
      · rename_i i p
        obtain ⟨rfl, hp, haway⟩ := agreeAway_edited hc (of_decide_eq_true ho) A
        refine replay_merged (fun c _ _ h => h.keep c) (fun _ _ h => ?_) hd haway
        refine h.merged (.remove hc.not_refused hp) fun x => ?_
        rw [Option.map_map]
        exact Option.map_congr fun m _ => (finmap_erase_of_notMem Finmap.notMem_erase_self).symm
      · cases ho

/-- Without a spared command the log leads to the same contents. -/
theorem replay_spared {c : Command} {log : List Command} {A : Contents}
    (h : spared env c log = true) :
    replay (edited env) log (edited env c A) = replay (edited env) log A := by
  rcases Bool.or_eq_true_iff.mp h with hnone | hany
  · rw [edited_of_none (Option.isNone_iff_eq_none.mp hnone)]
  · obtain ⟨d, hd, ho⟩ := List.any_eq_true.mp hany
    exact replay_overwritten hd ho A

/-- The log without the commands that can be spared. -/
def compacted (env : Environment) (commands : List (Orders × Command)) :
    List (Orders × Command) :=
  compact (fun l log => spared env l.2 (log.map Prod.snd)) commands

theorem map_compacted (commands : List (Orders × Command)) :
    (compacted env commands).map Prod.snd = compact (spared env) (commands.map Prod.snd) :=
  map_compact Prod.snd (spared env) commands

/-- A log can be compacted: without the commands that edit nothing and without those that a
later one overwrites it leads to the same keyspace. No command of the compacted log
overwrites another one of it. -/
theorem compaction_exact (hK : ReachableStore env K) {commands : List (Orders × Command)}
    (h : ∀ l ∈ commands, NulFreeNames l.2) :
    (∃ os os' K', run (step env) commands K = some (os, K') ∧
      run (step env) (compacted env commands) K = some (os', K')) ∧
    (compacted env commands).Pairwise fun l k => ¬ overwrites env k.2 l.2 = true := by
  obtain ⟨A, hA⟩ := hK.represents
  constructor
  · have hsub : ∀ l ∈ compacted env commands, NulFreeNames l.2 := fun l hl =>
      h l ((compact_sublist _ commands).subset hl)
    have hsame : replay (edited env) (commands.map Prod.snd) A =
        replay (edited env) ((compacted env commands).map Prod.snd) A := by
      rw [map_compacted, replay_compact fun c log A => replay_spared]
    exact hA.run_eq h hsub hsame
  · have hspared : ∀ (l k : Orders × Command) (log : List (Orders × Command)), k ∈ log →
        overwrites env k.2 l.2 = true → spared env l.2 (log.map Prod.snd) = true := by
      intro l k log hk ho
      have hany : (log.map Prod.snd).any (fun d => overwrites env d l.2) = true :=
        List.any_eq_true.mpr ⟨k.2, List.mem_map_of_mem hk, ho⟩
      rw [spared, hany, Bool.or_true]
    exact compact_pairwise hspared commands

/-- The first of two bodies is not needed, and neither is the read. -/
theorem compaction_exact_twice :
    (compacted sampleEnvironment (storedTwice.map (Prod.mk ascending))).map Prod.snd =
        [⟨.iset, [ascii "i"]⟩, ⟨.polyset, [ascii "i", ascii "p", holeBody]⟩] ∧
      ∃ os os' K', run (step sampleEnvironment) (storedTwice.map (Prod.mk ascending))
          emptyKeyspace = some (os, K') ∧
        run (step sampleEnvironment) (compacted sampleEnvironment
          (storedTwice.map (Prod.mk ascending))) emptyKeyspace = some (os', K') := by
  constructor
  · rw [map_compacted, map_snd_map_mk]
    rfl
  · exact (compaction_exact Reachable.start (nulFreeNames_storedTwice ascending)).1

end RedisS2Geo.Guarantees
