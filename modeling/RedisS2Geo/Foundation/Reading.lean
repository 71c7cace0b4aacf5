import RedisS2Geo.Foundation.Keyspace

/-!
# Computations that only read

A computation of this kind has a result on every state and leaves the state as it
is. Sequencing keeps both, so that a program is of this kind when its calls are.
-/

namespace RedisS2Geo.Foundation

variable {σ : Type} {α β : Type}

/-- A computation that always has a result and never changes the state. -/
def Observes (m : StateT σ Option α) : Prop := ∀ s, ∃ a, m s = some (a, s)

namespace Observes

theorem pure (a : α) : Observes (pure a : StateT σ Option α) := fun _ => ⟨a, rfl⟩

theorem bind {m : StateT σ Option α} {f : α → StateT σ Option β} (hm : Observes m)
    (hf : ∀ a, Observes (f a)) : Observes (m >>= f) := by
  intro s
  obtain ⟨a, ha⟩ := hm s
  obtain ⟨b, hb⟩ := hf a s
  exact ⟨b, Option.bind_eq_some_iff.mpr ⟨(a, s), ha, hb⟩⟩

theorem ite {c : Prop} [Decidable c] {m m' : StateT σ Option α} (hm : Observes m)
    (hm' : Observes m') : Observes (if c then m else m') := by
  split
  · exact hm
  · exact hm'

end Observes

/-- A command that leaves the keyspace alone. -/
theorem observes_call {call : Call α} (h : ∀ K, (call K).2 = K) :
    Observes (fun K => some (call K) : StateT (Keyspace α) Option (CallReply α)) := by
  intro K
  exact ⟨(call K).1, congrArg some (Prod.ext rfl (h K))⟩

end RedisS2Geo.Foundation
