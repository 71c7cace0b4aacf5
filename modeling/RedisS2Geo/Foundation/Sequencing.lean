import RedisS2Geo.Foundation.Footprint

/-!
# Properties of programs from their calls

A property of stateful computations that sequencing keeps holds of a program as soon
as it holds of its calls. Locality is one such property; another one bounds what a
program can leave behind in the hashes.
-/

namespace RedisS2Geo.Foundation

/-- A property of computations that sequencing keeps. -/
structure Sequential {σ : Type} (Φ : ∀ α : Type, StateT σ Option α → Prop) : Prop where
  pure : ∀ {α : Type} (a : α), Φ α (Pure.pure a)
  dead : ∀ {α : Type}, Φ α fun _ => none
  bind : ∀ {α β : Type} {m : StateT σ Option α} {f : α → StateT σ Option β},
    Φ α m → (∀ a, Φ β (f a)) → Φ β (m >>= f)

theorem Sequential.ite {σ : Type} {Φ : ∀ α : Type, StateT σ Option α → Prop}
    (_ : Sequential Φ) {α : Type} {c : Prop} [Decidable c] {m m' : StateT σ Option α}
    (hm : Φ α m) (hm' : Φ α m') : Φ α (if c then m else m') := by
  split
  · exact hm
  · exact hm'

theorem sequential_local {κ ν : Type} (R : Set κ) :
    Sequential fun (α : Type) (m : StateT (κ → ν) Option α) => Local R m where
  pure a := Local.pure a
  dead := Local.dead
  bind hm hf := hm.bind hf

/-! ### Entries of hashes -/

variable {α β : Type} [DecidableEq α] {key field value : α}

/-- A field of the hash at a key, with its value. -/
def Entry (K : Keyspace α) (key field value : α) : Prop :=
  ∃ fields, asHash (K key) = some fields ∧ fields.lookup field = some value

/-- Every entry that a computation leaves behind was there before or is a written one. -/
def WritesOnly (P : α → α → α → Prop) (m : StateT (Keyspace α) Option β) : Prop :=
  ∀ K b K', m K = some (b, K') → ∀ key field value, Entry K' key field value →
    Entry K key field value ∨ P key field value

theorem sequential_writes (P : α → α → α → Prop) :
    Sequential fun (β : Type) (m : StateT (Keyspace α) Option β) => WritesOnly P m where
  pure a := by
    intro K b K' h key field value he
    cases h
    exact Or.inl he
  dead := by
    intro β K b K' h
    cases h
  bind hm hf := by
    intro K b K' h key field value he
    obtain ⟨⟨a, K₁⟩, ha, hb⟩ := Option.bind_eq_some_iff.mp h
    rcases hf a K₁ b K' hb key field value he with hold | hnew
    · exact hm K a K₁ ha key field value hold
    · exact Or.inr hnew

/-- A command on one key leaves the entries of this key's new value behind. -/
theorem writes_of_update {P : α → α → α → Prop} {call : Call α}
    {g : Option (Value α) → Option (Value α)}
    (hwrite : ∀ K, (call K).2 = Function.update K key (g (K key)))
    (h : ∀ v new field value, asHash (g v) = some new → new.lookup field = some value →
      (∃ old, asHash v = some old ∧ old.lookup field = some value) ∨ P key field value) :
    WritesOnly P (fun K => some (call K) : StateT (Keyspace α) Option (CallReply α)) := by
  intro K b K' hcall k field value he
  have hK : K' = Function.update K key (g (K key)) := by
    rw [← hwrite K, Option.some.inj hcall]
  subst hK
  obtain ⟨new, hnew, hlookup⟩ := he
  by_cases hk : k = key
  · subst hk
    rw [Function.update_self] at hnew
    exact h (K k) new field value hnew hlookup
  · rw [Function.update_of_ne hk] at hnew
    exact Or.inl ⟨new, hnew, hlookup⟩

theorem writes_of_read {P : α → α → α → Prop} {call : Call α} (hread : ∀ K, (call K).2 = K) :
    WritesOnly P (fun K => some (call K) : StateT (Keyspace α) Option (CallReply α)) := by
  intro K b K' hcall key field value he
  have hK : K' = K := by
    rw [← hread K, Option.some.inj hcall]
  rw [hK] at he
  exact Or.inl he

/-- A command that updates the hash at a key, and leaves a key of another type alone. -/
theorem writes_of_hashUpdate {P : α → α → α → Prop} {call : Call α}
    {g : (Finmap fun _ : α => α) → Finmap fun _ : α => α}
    (hwrite : ∀ K, (call K).2 =
      Function.update K key ((asHash (K key)).elim (K key) fun fields => ofHash (g fields)))
    (h : ∀ fields f x, (g fields).lookup f = some x → fields.lookup f = some x ∨ P key f x) :
    WritesOnly P (fun K => some (call K) : StateT (Keyspace α) Option (CallReply α)) := by
  apply writes_of_update (g := fun v => (asHash v).elim v fun fields => ofHash (g fields)) hwrite
  intro v new f x hnew hlookup
  cases hv : asHash v with
  | none =>
      simp only [hv, Option.elim_none] at hnew
      cases hnew
  | some old =>
      simp only [hv, Option.elim_some, asHash_ofHash, Option.some.injEq] at hnew
      subst hnew
      rcases h old f x hlookup with hold | hP
      · exact Or.inl ⟨old, rfl, hold⟩
      · exact Or.inr hP

theorem writes_hset {P : α → α → α → Prop} (h : P key field value) :
    WritesOnly P (fun K => some (hset key field value K) :
      StateT (Keyspace α) Option (CallReply α)) := by
  apply writes_of_hashUpdate (hset_snd key field value)
  intro fields f x hlookup
  by_cases hf : f = field
  · subst hf
    rw [Finmap.lookup_insert] at hlookup
    obtain rfl := Option.some.inj hlookup
    exact Or.inr h
  · rw [Finmap.lookup_insert_of_ne _ hf] at hlookup
    exact Or.inl hlookup

theorem writes_hdel (P : α → α → α → Prop) (key field : α) :
    WritesOnly P (fun K => some (hdel key field K) : StateT (Keyspace α) Option (CallReply α)) := by
  apply writes_of_hashUpdate (hdel_snd key field)
  intro fields f x hlookup
  by_cases hf : f = field
  · subst hf
    rw [Finmap.lookup_erase] at hlookup
    cases hlookup
  · rw [Finmap.lookup_erase_ne hf] at hlookup
    exact Or.inl hlookup

theorem writes_del (P : α → α → α → Prop) (key : α) :
    WritesOnly P (fun K => some (del key K) : StateT (Keyspace α) Option (CallReply α)) := by
  apply writes_of_update (g := fun _ => none) (del_snd key)
  intro v new f x hnew hlookup
  obtain rfl : ∅ = new := by simpa using hnew
  simp at hlookup

/-- A set has no entries. -/
theorem lookup_ofSet {s : Finset α} {new : Finmap fun _ : α => α}
    (h : asHash (ofSet s) = some new) (field : α) : new.lookup field = none := by
  unfold ofSet at h
  split at h
  · obtain rfl : ∅ = new := by simpa using h
    simp
  · cases h

/-- A command that updates the set at a key, and leaves a key of another type alone. -/
theorem writes_of_setUpdate {P : α → α → α → Prop} {call : Call α} {g : Finset α → Finset α}
    (hwrite : ∀ K, (call K).2 =
      Function.update K key ((asSet (K key)).elim (K key) fun s => ofSet (g s))) :
    WritesOnly P (fun K => some (call K) : StateT (Keyspace α) Option (CallReply α)) := by
  apply writes_of_update (g := fun v => (asSet v).elim v fun s => ofSet (g s)) hwrite
  intro v new f x hnew hlookup
  cases hv : asSet v with
  | none =>
      simp only [hv, Option.elim_none] at hnew
      exact Or.inl ⟨new, hnew, hlookup⟩
  | some s =>
      simp only [hv, Option.elim_some] at hnew
      rw [lookup_ofSet hnew] at hlookup
      cases hlookup

theorem writes_sadd (P : α → α → α → Prop) (key : α) (members : List α) :
    WritesOnly P (fun K => some (sadd key members K) :
      StateT (Keyspace α) Option (CallReply α)) :=
  writes_of_setUpdate (sadd_snd key members)

theorem writes_srem (P : α → α → α → Prop) (key member : α) :
    WritesOnly P (fun K => some (srem key member K) :
      StateT (Keyspace α) Option (CallReply α)) :=
  writes_of_setUpdate (srem_snd key member)

end RedisS2Geo.Foundation
