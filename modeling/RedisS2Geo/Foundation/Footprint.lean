import Mathlib.Data.Set.Function
import Mathlib.Order.CompletePartialOrder
import RedisS2Geo.Foundation.Keyspace

/-!
# Footprints of stateful computations

A computation over a store is local to a region of keys when it changes no other
key and when its result depends on no other key. Local computations with disjoint
regions do not notice each other. Locality is closed under sequencing, so it is
proved along the structure of a program.
-/

namespace RedisS2Geo.Foundation
open Set

variable {κ ν : Type} {α β : Type} {R R' : Set κ}

/-- A computation that reads and writes keys of a region only. -/
structure Local (R : Set κ) (m : StateT (κ → ν) Option α) : Prop where
  frame : ∀ {K K' : κ → ν} {a : α}, m K = some (a, K') → EqOn K' K Rᶜ
  depends : ∀ {K₁ K₂ K₁' : κ → ν} {a : α}, EqOn K₁ K₂ R → m K₁ = some (a, K₁') →
    ∃ K₂', m K₂ = some (a, K₂') ∧ EqOn K₁' K₂' R

namespace Local

theorem pure (a : α) : Local R (pure a : StateT (κ → ν) Option α) where
  frame h := by
    cases h
    exact eqOn_refl _ _
  depends hK h := by
    cases h
    exact ⟨_, rfl, hK⟩

/-- A computation that dies at once. -/
theorem dead : Local R (fun _ => none : StateT (κ → ν) Option α) where
  frame h := by cases h
  depends _ h := by cases h

theorem bind {m : StateT (κ → ν) Option α} {f : α → StateT (κ → ν) Option β}
    (hm : Local R m) (hf : ∀ a, Local R (f a)) : Local R (m >>= f) where
  frame {K K' b} h := by
    obtain ⟨⟨a, K₁⟩, ha, hb⟩ := Option.bind_eq_some_iff.mp h
    exact ((hf a).frame hb).trans (hm.frame ha)
  depends {K₁ K₂ K₁' b} hK h := by
    obtain ⟨⟨a, K₃⟩, ha, hb⟩ := Option.bind_eq_some_iff.mp h
    obtain ⟨K₄, ha', hK'⟩ := hm.depends hK ha
    obtain ⟨K₂', hb', hK''⟩ := (hf a).depends hK' hb
    exact ⟨K₂', Option.bind_eq_some_iff.mpr ⟨(a, K₄), ha', hb'⟩, hK''⟩

/-- The result is the same on stores that agree on the region. -/
theorem result_eq {m : StateT (κ → ν) Option α} (hm : Local R m) {K K' : κ → ν}
    (h : EqOn K K' R) : (m K).map Prod.fst = (m K').map Prod.fst := by
  cases hK : m K with
  | some r =>
      obtain ⟨K₂, hK', -⟩ := hm.depends h hK
      rw [hK']
      rfl
  | none =>
      cases hK' : m K' with
      | none => rfl
      | some r =>
          obtain ⟨K₂, hK₂, -⟩ := hm.depends h.symm hK'
          rw [hK] at hK₂
          cases hK₂

/-- A computation with a disjoint region changes no result. -/
theorem result_eq_of_disjoint {m : StateT (κ → ν) Option α} {m' : StateT (κ → ν) Option β}
    (hm : Local R m) (hm' : Local R' m') (hd : Disjoint R R') {K K' : κ → ν} {b : β}
    (h : m' K = some (b, K')) : (m K').map Prod.fst = (m K).map Prod.fst :=
  hm.result_eq fun _ hk => hm'.frame h (disjoint_left.mp hd hk)

end Local

/-! ### Commands -/

variable {α : Type} [DecidableEq α]

/-- A command on one key: the reply depends on its value, and only this value changes. -/
structure OnKey (key : α) (call : Call α) : Prop where
  reply : ∀ {K₁ K₂ : Keyspace α}, K₁ key = K₂ key → (call K₁).1 = (call K₂).1
  write : ∃ g : Option (Value α) → Option (Value α),
    ∀ K, (call K).2 = Function.update K key (g (K key))

theorem onKey_hget (key field : α) : OnKey key (hget key field) where
  reply h := by
    unfold hget
    rw [h]
    split
    · rfl
    · split <;> rfl
  write := ⟨id, by simp⟩

theorem onKey_hmget (key : α) (fields : List α) : OnKey key (hmget key fields) where
  reply h := by
    unfold hmget
    rw [h]
    split <;> rfl
  write := ⟨id, by simp⟩

theorem onKey_hkeys (order : Enumeration α) (key : α) : OnKey key (hkeys order key) where
  reply h := by
    unfold hkeys
    rw [h]
    split <;> rfl
  write := ⟨id, by simp⟩

theorem onKey_hset (key field value : α) : OnKey key (hset key field value) where
  reply h := by
    unfold hset
    rw [h]
    split <;> rfl
  write := ⟨putField field value, hset_snd key field value⟩

theorem onKey_hdel (key field : α) : OnKey key (hdel key field) where
  reply h := by
    unfold hdel
    rw [h]
    split <;> rfl
  write := ⟨dropField field, hdel_snd key field⟩

theorem onKey_del (key : α) : OnKey key (del key) where
  reply h := by simp only [del, h]
  write := ⟨fun _ => none, del_snd key⟩

theorem onKey_sadd (key : α) (members : List α) : OnKey key (sadd key members) where
  reply h := by
    unfold sadd
    rw [h]
    split <;> rfl
  write := ⟨addMembers members.toFinset, sadd_snd key members⟩

theorem onKey_srem (key member : α) : OnKey key (srem key member) where
  reply h := by
    unfold srem
    rw [h]
    split <;> rfl
  write := ⟨dropMember member, srem_snd key member⟩

theorem onKey_smembers (order : Enumeration α) (key : α) : OnKey key (smembers order key) where
  reply h := by
    unfold smembers
    rw [h]
    split <;> rfl
  write := ⟨id, by simp⟩

theorem unionAt_congr {K₁ K₂ : Keyspace α} {keys : List α} (h : ∀ key ∈ keys, K₁ key = K₂ key) :
    unionAt K₁ keys = unionAt K₂ keys := by
  induction keys with
  | nil => rfl
  | cons key rest ih =>
      rw [unionAt, unionAt, h key (by simp), ih fun k hk => h k (by simp [hk])]

omit [DecidableEq α] in
/-- A command is local when its reply and its writes are. -/
theorem isLocal_call {R : Set α} {call : Call α}
    (hreply : ∀ {K₁ K₂}, EqOn K₁ K₂ R → (call K₁).1 = (call K₂).1)
    (hframe : ∀ K, EqOn (call K).2 K Rᶜ)
    (hwrite : ∀ {K₁ K₂}, EqOn K₁ K₂ R → EqOn (call K₁).2 (call K₂).2 R) :
    Local R (fun K => some (call K) : StateT (Keyspace α) Option (CallReply α)) where
  frame {K K' a} h := by
    have he : call K = (a, K') := Option.some.inj h
    have hK := hframe K
    rwa [he] at hK
  depends {K₁ K₂ K₁' a} hK h := by
    have he : call K₁ = (a, K₁') := Option.some.inj h
    have hr : a = (call K₂).1 := by rw [← hreply hK, he]
    have hw := hwrite hK
    rw [he] at hw
    exact ⟨(call K₂).2, by rw [hr], hw⟩

/-- A command on one key of the region is local. -/
theorem OnKey.isLocal {R : Set α} {key : α} {call : Call α} (h : OnKey key call) (hk : key ∈ R) :
    Local R (fun K => some (call K) : StateT (Keyspace α) Option (CallReply α)) := by
  obtain ⟨g, hg⟩ := h.write
  refine isLocal_call (fun hK => h.reply (hK hk)) (fun K k hkR => ?_) fun {K₁ K₂} hK k hkR => ?_
  · have hne : k ≠ key := by
      rintro rfl
      exact hkR hk
    rw [hg, Function.update_of_ne hne]
  · rw [hg, hg]
    by_cases he : k = key
    · subst he
      rw [Function.update_self, Function.update_self, hK hkR]
    · rw [Function.update_of_ne he, Function.update_of_ne he, hK hkR]

/-- A union of sets of the region is local. -/
theorem isLocal_sunion {R : Set α} (order : Enumeration α) {keys : List α}
    (hk : ∀ key ∈ keys, key ∈ R) :
    Local R (fun K => some (sunion order keys K) :
      StateT (Keyspace α) Option (CallReply α)) := by
  refine isLocal_call (fun {K₁ K₂} hK => ?_) (fun K => ?_) fun {K₁ K₂} hK => ?_
  · have hu : unionAt K₁ keys = unionAt K₂ keys := unionAt_congr fun key hkey => hK (hk key hkey)
    unfold sunion
    rw [hu]
    split <;> rfl
  · rw [sunion_snd]
    exact eqOn_refl _ _
  · rwa [sunion_snd, sunion_snd]

end RedisS2Geo.Foundation
