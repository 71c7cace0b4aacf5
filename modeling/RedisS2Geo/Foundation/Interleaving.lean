import RedisS2Geo.Foundation.Machine

/-!
# Interleavings of two commuting clients

Two clients send their labels to one machine. When every label of the first
client commutes with every label of the second one, each interleaving ends where
the sequential run ends and every label gets the reply it gets there.
-/

namespace RedisS2Geo.Foundation

variable {S L O : Type*}

/-- The labels of the first client, or the replies it gets. -/
def lefts (zs : List (L ⊕ L)) : List L := zs.filterMap Sum.getLeft?

/-- The labels of the second client, or the replies it gets. -/
def rights (zs : List (L ⊕ L)) : List L := zs.filterMap Sum.getRight?

@[simp] theorem lefts_nil : lefts ([] : List (L ⊕ L)) = [] := rfl

@[simp] theorem rights_nil : rights ([] : List (L ⊕ L)) = [] := rfl

@[simp] theorem lefts_inl (x : L) (zs : List (L ⊕ L)) : lefts (.inl x :: zs) = x :: lefts zs := rfl

@[simp] theorem lefts_inr (x : L) (zs : List (L ⊕ L)) : lefts (.inr x :: zs) = lefts zs := rfl

@[simp] theorem rights_inl (x : L) (zs : List (L ⊕ L)) : rights (.inl x :: zs) = rights zs := rfl

@[simp] theorem rights_inr (x : L) (zs : List (L ⊕ L)) :
    rights (.inr x :: zs) = x :: rights zs := rfl

/-- The machine seen by two clients: a reply goes to the client that sent the label. -/
def shared (step : Step S L O) : Step S (L ⊕ L) (O ⊕ O)
  | .inl l, s => (step l s).map fun r => (.inl r.1, r.2)
  | .inr l, s => (step l s).map fun r => (.inr r.1, r.2)

/-- The two orders of two labels reach the same state with the same replies. -/
def CommuteAt (step : Step S L O) (a b : L) (s : S) : Prop :=
  ∃ oa ob s₁ s₂ t, step a s = some (oa, s₁) ∧ step b s₁ = some (ob, t) ∧
    step b s = some (ob, s₂) ∧ step a s₂ = some (oa, t)

variable {step : Step S L O} {Inv : S → Prop} {xs : List L} {b : L} {s : S}

/-- A label that commutes with a whole sequence may run before it. -/
theorem run_commute
    (hstep : ∀ a ∈ xs, ∀ s, Inv s → ∃ o t, step a s = some (o, t) ∧ Inv t)
    (hcomm : ∀ a ∈ xs, ∀ s, Inv s → CommuteAt step a b s)
    {ob : O} {s' : S} (hb : step b s = some (ob, s')) (hs : Inv s) :
    ∃ os s₁ t, run step xs s = some (os, s₁) ∧ step b s₁ = some (ob, t) ∧
      run step xs s' = some (os, t) := by
  induction xs generalizing s s' with
  | nil => exact ⟨[], s, s', rfl, hb, rfl⟩
  | cons a xs ih =>
      obtain ⟨oa, ob', s₁, s₂, t, ha, hb₁, hb', ha'⟩ := hcomm a (by simp) s hs
      obtain ⟨rfl, rfl⟩ : ob' = ob ∧ s₂ = s' := by simpa [hb] using hb'.symm
      have hInv : Inv s₁ := by
        obtain ⟨_, _, h, hi⟩ := hstep a (by simp) s hs
        rw [ha] at h
        cases h
        exact hi
      obtain ⟨os, s₃, u, hr, hbu, hr'⟩ := ih (fun c hc => hstep c (by simp [hc]))
        (fun c hc => hcomm c (by simp [hc])) hb₁ hInv
      exact ⟨oa :: os, s₃, u, run_cons_eq_some.mpr ⟨oa, s₁, os, ha, hr, rfl⟩, hbu,
        run_cons_eq_some.mpr ⟨oa, t, os, ha', hr', rfl⟩⟩

/-- Every interleaving of two commuting clients agrees with the sequential run, in the
final state and in every reply. -/
theorem run_interleaving {zs : List (L ⊕ L)}
    (hleft : ∀ a ∈ lefts zs, ∀ s, Inv s → ∃ o t, step a s = some (o, t) ∧ Inv t)
    (hright : ∀ b ∈ rights zs, ∀ s, Inv s → ∃ o t, step b s = some (o, t) ∧ Inv t)
    (hcomm : ∀ a ∈ lefts zs, ∀ b ∈ rights zs, ∀ s, Inv s → CommuteAt step a b s)
    (hs : Inv s) :
    ∃ os₁ s₁ os₂ t os, run step (lefts zs) s = some (os₁, s₁) ∧
      run step (rights zs) s₁ = some (os₂, t) ∧
      run (shared step) zs s = some (os, t) ∧ lefts os = os₁ ∧ rights os = os₂ := by
  induction zs generalizing s with
  | nil => exact ⟨[], s, [], s, [], rfl, rfl, rfl, rfl, rfl⟩
  | cons z zs ih =>
      cases z with
      | inl a =>
          obtain ⟨oa, s', ha, hs'⟩ := hleft a (by simp) s hs
          obtain ⟨os₁, s₁, os₂, t, os, h₁, h₂, h, rfl, rfl⟩ := ih
            (fun c hc => hleft c (by simp [hc])) hright
            (fun c hc => hcomm c (by simp [hc])) hs'
          exact ⟨oa :: lefts os, s₁, rights os, t, .inl oa :: os,
            run_cons_eq_some.mpr ⟨oa, s', _, ha, h₁, rfl⟩, h₂,
            run_cons_eq_some.mpr ⟨.inl oa, s', os, by simp [shared, ha], h, rfl⟩, rfl, rfl⟩
      | inr b =>
          obtain ⟨ob, s', hb, hs'⟩ := hright b (by simp) s hs
          obtain ⟨os₁, s₁, os₂, t, os, h₁, h₂, h, rfl, rfl⟩ := ih hleft
            (fun c hc => hright c (by simp [hc]))
            (fun c hc d hd => hcomm c hc d (by simp [hd])) hs'
          obtain ⟨os₁', s₂, u, hr, hbu, hr'⟩ := run_commute hleft
            (fun a ha => hcomm a ha b (by simp)) hb hs
          obtain ⟨rfl, rfl⟩ : os₁' = lefts os ∧ u = s₁ := by
            rw [rights_inr, lefts_inr] at *
            simpa [hr'] using h₁
          exact ⟨lefts os, s₂, ob :: rights os, t, .inr ob :: os, hr,
            run_cons_eq_some.mpr ⟨ob, u, _, hbu, h₂, rfl⟩,
            run_cons_eq_some.mpr ⟨.inr ob, s', os, by simp [shared, hb], h, rfl⟩, rfl, rfl⟩

end RedisS2Geo.Foundation
