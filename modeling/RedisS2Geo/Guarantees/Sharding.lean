import RedisS2Geo.Store.Events

/-!
# Indexes are shards

Any number of clients share the database: commands on many indexes, with any arguments,
and writes of other kinds are interleaved in one history. For each index the history
comes down to the commands on this index alone.
-/

namespace RedisS2Geo.Guarantees
open Foundation Source Covering Store Set

variable {env : Environment}

/-- In every history of any database, whose foreign writes stay away from the keys of an
index, the commands on this index get the replies that they get without all the others,
and leave the values at its keys that they leave without them. -/
theorem index_is_shard {n : Bytes} (hn : entityDelim ∉ n) {events : List Event}
    (hforeign : ∀ key v, Event.foreign key v ∈ events → key ∉ region n)
    {K K' : Keyspace Bytes} {replies : List (Option Outcome)}
    (h : run (eventStep env) events K = some (replies, K')) :
    ∃ K₁, run (eventStep env) (events.filter fun e => OnIndex n e) K =
        some (keptReplies (OnIndex n) events replies, K₁) ∧ EqOn K' K₁ (region n) := by
  refine run_kept (fun e _ hkeep => ?_) (fun e he hdrop => ?_) h (eqOn_refl K _)
  · cases e with
    | foreign key v => exact absurd hkeep id
    | command ω c =>
        obtain ⟨i, hi, rfl⟩ := Option.map_eq_some_iff.mp hkeep
        exact isLocal_command (local_exec env ω i hi)
  · cases e with
    | foreign key v =>
        exact ⟨{key}, disjoint_singleton_right.mpr (hforeign key v he), isLocal_write none key v⟩
    | command ω c =>
        obtain ⟨R', hd, hlocal⟩ := exists_apart env ω hn hdrop
        exact ⟨R', hd, isLocal_command hlocal⟩

/-- Two indexes are created, and in between a string is stored at a third key. -/
def twoIndexes : List Event :=
  [.command ascending ⟨.iset, [ascii "i"]⟩,
    .foreign (ascii "j:x") (some (.other (ascii "string") [])),
    .command ascending ⟨.iset, [ascii "j"]⟩]

theorem index_is_shard_two :
    ∃ replies K' K₁, run (eventStep sampleEnvironment) twoIndexes emptyKeyspace =
        some (replies, K') ∧
      run (eventStep sampleEnvironment) [.command ascending ⟨.iset, [ascii "i"]⟩] emptyKeyspace =
        some (keptReplies (OnIndex (ascii "i")) twoIndexes replies, K₁) ∧
      EqOn K' K₁ (region (ascii "i")) := by
  set K₂ := Function.update (withMarker emptyKeyspace (ascii "i")) (ascii "j:x")
    (some (.other (ascii "string") [])) with hK₂
  have hxi : IndexAbsent emptyKeyspace (ascii "i") := ⟨by decide, rfl⟩
  have hxj : IndexAbsent K₂ (ascii "j") := ⟨by decide, rfl⟩
  have hi : exec sampleEnvironment ascending ⟨.iset, [ascii "i"]⟩ emptyKeyspace =
      some (replyWithSimpleString "OK", withMarker emptyKeyspace (ascii "i")) :=
    setIndexCommand_absent hxi
  have hj : exec sampleEnvironment ascending ⟨.iset, [ascii "j"]⟩ K₂ =
      some (replyWithSimpleString "OK", withMarker K₂ (ascii "j")) :=
    setIndexCommand_absent hxj
  have hrun : run (eventStep sampleEnvironment) twoIndexes emptyKeyspace = some (_, _) :=
    run_cons_eq_some.mpr ⟨_, _, _, eventStep_command.mpr ⟨_, hi, rfl⟩,
      run_cons_eq_some.mpr ⟨_, _, _, rfl,
        run_cons_eq_some.mpr ⟨_, _, _, eventStep_command.mpr ⟨_, hj, rfl⟩, rfl, rfl⟩, rfl⟩, rfl⟩
  have hforeign : ∀ key v, Event.foreign key v ∈ twoIndexes → key ∉ region (ascii "i") := by
    intro key v hmem
    obtain ⟨rfl, -⟩ : key = ascii "j:x" ∧ v = some (.other (ascii "string") []) := by
      simpa [twoIndexes] using hmem
    rintro ⟨k, hk, he⟩
    rw [StoreKey.bytes, hk] at he
    exact absurd (List.cons.inj he).1 (by decide)
  obtain ⟨K₁, h₁, hR⟩ := index_is_shard (by decide) hforeign hrun
  exact ⟨_, _, K₁, hrun, h₁, hR⟩

end RedisS2Geo.Guarantees
