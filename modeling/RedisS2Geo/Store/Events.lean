import RedisS2Geo.Foundation.Projection
import RedisS2Geo.Store.Locality
import RedisS2Geo.Store.Runs

/-!
# The module among other clients of the database

The keys of the module are ordinary keys. Another client may write any value to any
of them or delete it, and Redis itself may evict a key; all of this is one kind of
event, a write of an arbitrary value or of none. A history of the database is a run
over commands of the module and such events.
-/

namespace RedisS2Geo.Store
open Foundation Source

/-- What happens to the database: a command of the module, or a key that gets a value
or vanishes in another way. -/
inductive Event where
  | command (ω : Orders) (c : Command)
  | foreign (key : Bytes) (value : Option (Value Bytes))

/-- The database after one event; only a command has a reply. -/
def eventStep (env : Environment) : Step (Keyspace Bytes) Event (Option Outcome)
  | .command ω c, K => (exec env ω c K).map fun r => (some r.1, r.2)
  | .foreign key value, K => some (none, Function.update K key value)

/-- A command on the index with this C string as its name. -/
def OnIndex (n : Bytes) : Event → Prop
  | .command _ c => c.args.head?.map cString = some n
  | .foreign _ _ => False

instance (n : Bytes) : DecidablePred (OnIndex n)
  | .command _ _ => inferInstanceAs (Decidable (_ = _))
  | .foreign _ _ => inferInstanceAs (Decidable False)

theorem eventStep_command {env : Environment} {ω : Orders} {c : Command} {K K' : Keyspace Bytes}
    {r : Option Outcome} :
    eventStep env (.command ω c) K = some (r, K') ↔
      ∃ o, exec env ω c K = some (o, K') ∧ r = some o := by
  simp only [eventStep, Option.map_eq_some_iff, Prod.mk.injEq, Prod.exists]
  constructor
  · rintro ⟨o, K₁, he, rfl, rfl⟩
    exact ⟨o, he, rfl⟩
  · rintro ⟨o, he, rfl⟩
    exact ⟨o, K', he, rfl, rfl⟩

/-- The event of a local command is local. -/
theorem isLocal_command {env : Environment} {ω : Orders} {c : Command} {R : Set Bytes}
    (h : Local R (exec env ω c)) :
    Local R (eventStep env (.command ω c) : ModuleM (Option Outcome)) where
  frame he := by
    obtain ⟨o, he, -⟩ := eventStep_command.mp he
    exact h.frame he
  depends hK he := by
    obtain ⟨o, hexec, rfl⟩ := eventStep_command.mp he
    obtain ⟨K', he', hR⟩ := h.depends hK hexec
    exact ⟨K', eventStep_command.mpr ⟨o, he', rfl⟩, hR⟩

/-- A command whose index name is missing or refused touches no key. -/
theorem local_exec_refused (env : Environment) (ω : Orders) {c : Command}
    (h : ∀ i, c.args.head? = some i → ¬ Accepted i) : Local ∅ (exec env ω c) := by
  by_cases hs : Shaped c
  · obtain ⟨i, hi⟩ : ∃ i, c.args.head? = some i := by cases hs <;> exact ⟨_, rfl⟩
    have hpure : exec env ω c = pure (replyWithError "invalid index name") :=
      funext fun K => exec_indexName_refused ω hs hi (h i hi)
    rw [hpure]
    exact Local.pure _
  · have hpure : exec env ω c = pure wrongArity := funext fun K => exec_wrongArity ω hs
    rw [hpure]
    exact Local.pure _

/-- A command on another index is local to keys apart from those of the index. -/
theorem exists_apart (env : Environment) (ω : Orders) {c : Command} {n : Bytes}
    (hn : entityDelim ∉ n) (h : c.args.head?.map cString ≠ some n) :
    ∃ R', Disjoint (region n) R' ∧ Local R' (exec env ω c) := by
  by_cases hacc : ∃ i, c.args.head? = some i ∧ Accepted i
  · obtain ⟨i, hi, hacc⟩ := hacc
    have hne : n ≠ cString i := by
      rintro rfl
      exact h (by rw [hi, Option.map_some])
    exact ⟨_, disjoint_region hn hacc.notMem hne, local_exec env ω i hi⟩
  · push Not at hacc
    exact ⟨∅, disjoint_bot_right, local_exec_refused env ω hacc⟩

end RedisS2Geo.Store
