import RedisS2Geo.Store.Effects
import RedisS2Geo.Store.Events

/-!
# What the registration promises

`RedisModule_OnLoad` registers a flag and the position of the keys for each command.
The flags are exact: the commands registered as read-only are those that never write, and
the ones registered as a write are those that change some reachable keyspace.
The declared key is the name of the index, and this key is never touched.
-/

namespace RedisS2Geo.Guarantees
open Foundation Source Covering Store

variable {env : Environment} {b : Bytes} {name : CommandName}

/-- The command changes a reachable keyspace with some arguments. -/
def ChangesReachable (env : Environment) (name : CommandName) : Prop :=
  ∃ ω args K o K', ReachableStore env K ∧ exec env ω ⟨name, args⟩ K = some (o, K') ∧ K' ≠ K

/-- The keyspace after `ISET` on the empty database. -/
theorem reachable_marked : ReachableStore env (withMarker emptyKeyspace (ascii "i")) := by
  have habsent : IndexAbsent emptyKeyspace (ascii "i") := ⟨by decide, rfl⟩
  have hset : step env (ascending, ⟨.iset, [ascii "i"]⟩) emptyKeyspace =
      some (_, withMarker emptyKeyspace (ascii "i")) := setIndexCommand_absent habsent
  refine Reachable.start.step (fun n hn => ?_) hset
  obtain rfl : n = ascii "i" := by simpa [names] using hn
  exact plainName_i.2

/-- Each of the four writing commands changes some reachable keyspace. -/
theorem exists_write (hb : bodyTerms env b ≠ ∅) (h : (registration name).flags = "write") :
    ChangesReachable env name := by
  obtain ⟨K, hK, hreach, hx, hbody⟩ :=
    exists_single env ascending plainName_i plainName_p hb
  obtain ⟨A, hA⟩ := hreach.represents
  obtain ⟨m, hm⟩ := hA.exists_polygons hx
  have hp : ascii "p" ∈ m := by
    rw [hA.bodyAt_eq hx.accepted.notMem, Contents.polygons_of_some hm] at hbody
    exact Finmap.mem_iff.mpr ⟨b, hbody⟩
  cases name with
  | iget | polyget | polymget | polylist | polysearch | pointsearch => exact absurd h (by decide)
  | iset =>
      have habsent : IndexAbsent emptyKeyspace (ascii "i") := ⟨by decide, rfl⟩
      refine ⟨ascending, [ascii "i"], _, _, _, Reachable.start, setIndexCommand_absent habsent,
        fun he => ?_⟩
      have hmarker := habsent.withMarker.marker
      rw [he, habsent.marker] at hmarker
      cases hmarker
  | idel =>
      obtain ⟨K', he, h'⟩ := hA.deleteIndexCommand_exists ascending hx.accepted hm
      refine ⟨ascending, [ascii "i"], K, _, K', hreach, he, ?_⟩
      rintro rfl
      have habsent := h'.indexAbsent hx.accepted (Function.update_self _ _ _)
      have hmarker := hx.marker
      rw [habsent.marker] at hmarker
      cases hmarker
  | polyset =>
      have hmarked : Represents env (withMarker emptyKeyspace (ascii "i")) _ :=
        Represents.empty.create plainName_i.1.notMem plainName_i rfl
      obtain ⟨K', he, h'⟩ := hmarked.setPolygonCommand_plain ascending plainName_i.1
        (Function.update_self _ _ _) plainName_p hb
      refine ⟨ascending, [ascii "i", ascii "p", b], _, _, K', reachable_marked, he, ?_⟩
      rintro hsame
      have hbody' := h'.bodyAt_eq plainName_i.1.notMem (ascii "p")
      rw [hsame, hmarked.bodyAt_eq plainName_i.1.notMem] at hbody'
      simp [Contents.polygons] at hbody'
  | polydel =>
      obtain ⟨K', he, h'⟩ := hA.deletePolygonCommand_mem ascending hx.accepted hm hp
      refine ⟨ascending, [ascii "i", ascii "p"], K, _, K', hreach, he, ?_⟩
      rintro rfl
      have hbody' := h'.bodyAt_eq hx.accepted.notMem (ascii "p")
      rw [hbody] at hbody'
      simp [Contents.polygons] at hbody'

/-- A command that leaves every keyspace as it is changes no reachable one. -/
theorem not_changesReachable (h : ∀ ω args K, ∃ o, exec env ω ⟨name, args⟩ K = some (o, K)) :
    ¬ ChangesReachable env name := by
  rintro ⟨ω, args, K, o, K', -, he, hne⟩
  obtain ⟨o', he'⟩ := h ω args K
  exact hne (exec_unique he he').2

theorem flags_cases (name : CommandName) :
    (registration name).flags = "readonly" ∨ (registration name).flags = "write" := by
  cases name <;> decide

/-- Where some body has a covering, a command is registered as read-only exactly when it
answers on every keyspace, with every argument, and leaves it as it is, and it is registered
as a write exactly when it changes some reachable keyspace. -/
theorem flags_exact (hb : bodyTerms env b ≠ ∅) (name : CommandName) :
    ((registration name).flags = "readonly" ↔
      ∀ ω args K, ∃ o, exec env ω ⟨name, args⟩ K = some (o, K)) ∧
    ((registration name).flags = "write" ↔ ChangesReachable env name) := by
  have hreads : (registration name).flags = "readonly" →
      ∀ ω args K, ∃ o, exec env ω ⟨name, args⟩ K = some (o, K) :=
    fun h ω args K => observes_exec env ω (c := ⟨name, args⟩) h K
  constructor
  · refine ⟨hreads, fun h => (flags_cases name).resolve_right fun hwrite => ?_⟩
    exact not_changesReachable h (exists_write hb hwrite)
  · refine ⟨exists_write hb, fun h => (flags_cases name).resolve_left fun hread => ?_⟩
    exact not_changesReachable (hreads hread) h

theorem flags_exact_idel :
    (¬ ∀ ω args K, ∃ o, exec sampleEnvironment ω ⟨.idel, args⟩ K = some (o, K)) ∧
      ChangesReachable sampleEnvironment .idel := by
  obtain ⟨hreads, hwrites⟩ :=
    flags_exact (bodyTerms_eq_empty_iff.not.mpr covered_triangleBody) .idel
  exact ⟨hreads.not.mp (by decide), hwrites.mp (by decide)⟩

/-! ### Declared keys -/

/-- The keys that Redis takes from the arguments by their registered positions; the
arguments are counted from one, behind the name of the command. -/
def declaredKeys (c : Command) : List Bytes :=
  let r := registration c.name
  (List.range' r.firstKey ((r.lastKey - r.firstKey) / r.keyStep + 1) r.keyStep).filterMap
    fun position => c.args[position - 1]?

theorem mem_declaredKeys {c : Command} {key : Bytes} :
    key ∈ declaredKeys c ↔ c.args.head? = some key := by
  obtain ⟨name, args⟩ := c
  cases name <;> cases args <;> simp [declaredKeys, registration, eq_comm]

/-- No key of an index is the name of this index. -/
theorem notMem_region_self (i : Bytes) : i ∉ region (cString i) := by
  rintro ⟨k, hk, he⟩
  rw [StoreKey.bytes, hk] at he
  -- a C string does not end before a byte that is not zero
  have hall : ∀ b ∈ cString i, decide (b ≠ 0) = true := by
    intro b hb
    unfold cString at hb
    exact List.mem_takeWhile_imp (p := fun b => decide (b ≠ 0)) hb
  have hnext : cString i = cString i ++ cString (entityDelim :: k.tail) := by
    conv_lhs => rw [he, cString, List.takeWhile_append_of_pos hall]
    rfl
  have hdelim : cString (entityDelim :: k.tail) = entityDelim :: cString k.tail :=
    List.takeWhile_cons_of_pos (by decide)
  rw [hdelim] at hnext
  simpa using congrArg List.length hnext

/-- The declared key of a command is neither read nor written: whatever another client
keeps there, the command does the same and leaves it alone. -/
theorem declared_key_untouched {c : Command} {key : Bytes} (h : key ∈ declaredKeys c)
    (ω : Orders) (K : Keyspace Bytes) (v : Option (Value Bytes)) :
    exec env ω c (Function.update K key v) =
      (exec env ω c K).map fun r => (r.1, Function.update r.2 key v) :=
  (local_exec env ω key (mem_declaredKeys.mp h)).update_outside (notMem_region_self key) K v

/-- A string under the name of the index is not in the way of `ISET`. -/
theorem declared_key_untouched_iset :
    exec sampleEnvironment ascending ⟨.iset, [ascii "i"]⟩
        (Function.update emptyKeyspace (ascii "i") (some (.other (ascii "string") []))) =
      (exec sampleEnvironment ascending ⟨.iset, [ascii "i"]⟩ emptyKeyspace).map fun r =>
        (r.1, Function.update r.2 (ascii "i") (some (.other (ascii "string") []))) :=
  declared_key_untouched (by decide) ascending emptyKeyspace _

end RedisS2Geo.Guarantees
