import RedisS2Geo.Foundation.Machine

/-!
# Invariants along one run

The history of a run pairs its labels with their replies. An invariant may speak about
the history: it is enough that the steps of this run preserve it. An invariant that also
keeps every step alive makes all runs succeed.
-/

namespace RedisS2Geo.Foundation

variable {S L O : Type*} {step : Step S L O}

/-- A run in two pieces. -/
theorem run_append_eq_some {ls ls' : List L} {s t : S} {os : List O} :
    run step (ls ++ ls') s = some (os, t) ↔ ∃ os₁ s₁ os₂, run step ls s = some (os₁, s₁) ∧
      run step ls' s₁ = some (os₂, t) ∧ os = os₁ ++ os₂ := by
  induction ls generalizing s os with
  | nil => simp
  | cons l ls ih =>
      rw [List.cons_append]
      constructor
      · intro h
        obtain ⟨o, s', os', hs, hr, rfl⟩ := run_cons_eq_some.mp h
        obtain ⟨os₁, s₁, os₂, h₁, h₂, rfl⟩ := ih.mp hr
        exact ⟨o :: os₁, s₁, os₂, run_cons_eq_some.mpr ⟨o, s', os₁, hs, h₁, rfl⟩, h₂, rfl⟩
      · rintro ⟨os₁, s₁, os₂, h₁, h₂, rfl⟩
        obtain ⟨o, s', os', hs, hr, rfl⟩ := run_cons_eq_some.mp h₁
        exact run_cons_eq_some.mpr
          ⟨o, s', os' ++ os₂, hs, ih.mpr ⟨os', s₁, os₂, hr, h₂, rfl⟩, rfl⟩

/-- What every step of the history preserves holds at the end of the run. -/
theorem run_invariant (Inv : S → Prop) {ls : List L} {os : List O} {s t : S}
    (hstep : ∀ l o s t, (l, o) ∈ ls.zip os → Inv s → step l s = some (o, t) → Inv t)
    (hrun : run step ls s = some (os, t)) (hs : Inv s) : Inv t := by
  induction ls generalizing s os with
  | nil =>
      obtain ⟨-, rfl⟩ : [] = os ∧ s = t := by simpa using hrun
      exact hs
  | cons l ls ih =>
      obtain ⟨o, s', os', hl, hrun', rfl⟩ := run_cons_eq_some.mp hrun
      apply ih _ hrun' (hstep l o s s' (by simp) hs hl)
      intro k r u v hk
      exact hstep k r u v (by simp [hk])

/-- A machine whose steps answer as required, whenever the invariant holds, goes on for ever. -/
theorem run_total (Inv : S → Prop) (Answers : O → Prop) {Allowed : L → Prop}
    (hstep : ∀ l s, Allowed l → Inv s → ∃ o t, step l s = some (o, t) ∧ Answers o ∧ Inv t)
    {ls : List L} (hls : ∀ l ∈ ls, Allowed l) {s : S} (hs : Inv s) :
    ∃ os t, run step ls s = some (os, t) ∧ (∀ o ∈ os, Answers o) ∧ Inv t := by
  induction ls generalizing s with
  | nil => exact ⟨[], s, rfl, by simp, hs⟩
  | cons l ls ih =>
      obtain ⟨o, s', hl, ho, hs'⟩ := hstep l s (hls l (by simp)) hs
      obtain ⟨os, t, hrun, hos, ht⟩ := ih (fun k hk => hls k (by simp [hk])) hs'
      refine ⟨o :: os, t, run_cons_eq_some.mpr ⟨o, s', os, hl, hrun, rfl⟩, ?_, ht⟩
      intro r hr
      rcases List.mem_cons.mp hr with rfl | hr
      · exact ho
      · exact hos r hr

end RedisS2Geo.Foundation
