import RedisS2Geo.Foundation.Footprint
import RedisS2Geo.Foundation.Machine

/-!
# Projecting a run onto a region

Some labels of a machine are local to a region and the other ones are local to regions
apart from it. What the run does in the region is the run of the labels that belong
to it, with the replies they get there.
-/

namespace RedisS2Geo.Foundation
open Set

variable {κ ν O : Type} {L : Type*} {R : Set κ}

/-- A value outside of the region passes through a local computation. -/
theorem Local.update_outside [DecidableEq κ] {α : Type} {m : StateT (κ → ν) Option α}
    (hm : Local R m) {key : κ} (hkey : key ∉ R) (K : κ → ν) (v : ν) :
    m (Function.update K key v) = (m K).map fun r => (r.1, Function.update r.2 key v) := by
  have hagree : EqOn K (Function.update K key v) R := by
    intro k hk
    have hne : k ≠ key := by
      rintro rfl
      exact hkey hk
    rw [Function.update_of_ne hne]
  cases hK : m K with
  | none =>
      cases hK' : m (Function.update K key v) with
      | none => rfl
      | some r =>
          obtain ⟨_, h, -⟩ := hm.depends hagree.symm hK'
          rw [hK] at h
          cases h
  | some r =>
      obtain ⟨a, K₁⟩ := r
      obtain ⟨K₂, h₂, hR⟩ := hm.depends hagree hK
      have hsame : K₂ = Function.update K₁ key v := by
        funext k
        by_cases hk : k ∈ R
        · have hne : k ≠ key := by
            rintro rfl
            exact hkey hk
          rw [Function.update_of_ne hne, hR hk]
        · -- outside of the region both computations leave the key alone
          rw [hm.frame h₂ hk]
          by_cases he : k = key
          · subst he
            rw [Function.update_self, Function.update_self]
          · rw [Function.update_of_ne he, Function.update_of_ne he, hm.frame hK hk]
      rw [h₂, hsame]
      rfl

/-- A write of a fixed value is local to its key. -/
theorem isLocal_write [DecidableEq κ] {α : Type} (a : α) (key : κ) (v : ν) :
    Local {key} (fun K => some (a, Function.update K key v) : StateT (κ → ν) Option α) where
  frame h := by
    obtain ⟨-, rfl⟩ := Prod.mk.inj (Option.some.inj h)
    intro k hk
    exact Function.update_of_ne hk _ _
  depends {K₁ K₂ K₁' b} hK h := by
    obtain ⟨rfl, rfl⟩ := Prod.mk.inj (Option.some.inj h)
    refine ⟨_, rfl, ?_⟩
    rintro k rfl
    rw [Function.update_self, Function.update_self]

variable (Keep : L → Prop) [DecidablePred Keep]

/-- The replies of a run to the labels that are kept. -/
def keptReplies (ls : List L) (os : List O) : List O :=
  ((ls.zip os).filter fun x => Keep x.1).map Prod.snd

variable {Keep} {step : Step (κ → ν) L O}

/-- The kept labels run alone get the replies they get in the whole run, and leave the
values in the region that the whole run leaves there. -/
theorem run_kept {ls : List L} {os : List O} {K K' K₀ : κ → ν}
    (hkeep : ∀ l ∈ ls, Keep l → Local R (step l : StateT (κ → ν) Option O))
    (hdrop : ∀ l ∈ ls, ¬ Keep l →
      ∃ R', Disjoint R R' ∧ Local R' (step l : StateT (κ → ν) Option O))
    (h : run step ls K = some (os, K')) (hK : EqOn K K₀ R) :
    ∃ K₁, run step (ls.filter fun l => Keep l) K₀ = some (keptReplies Keep ls os, K₁) ∧
      EqOn K' K₁ R := by
  induction ls generalizing K K₀ os with
  | nil =>
      obtain ⟨rfl, rfl⟩ : [] = os ∧ K = K' := by simpa using h
      exact ⟨K₀, rfl, hK⟩
  | cons l ls ih =>
      obtain ⟨o, K₁, os, hstep, hrun, rfl⟩ := run_cons_eq_some.mp h
      have hrest : ∀ K₀, EqOn K₁ K₀ R → _ := fun K₀ hR =>
        ih (fun l hl => hkeep l (List.mem_cons_of_mem _ hl))
          (fun l hl => hdrop l (List.mem_cons_of_mem _ hl)) hrun hR
      by_cases hl : Keep l
      · obtain ⟨K₂, h₂, hR⟩ := (hkeep l (by simp) hl).depends hK hstep
        obtain ⟨K₃, h₃, hR'⟩ := hrest K₂ hR
        refine ⟨K₃, ?_, hR'⟩
        rw [List.filter_cons_of_pos (by simpa using hl)]
        exact run_cons_eq_some.mpr ⟨o, K₂, _, h₂, h₃, by simp [keptReplies, hl]⟩
      · obtain ⟨R', hd, hlocal⟩ := hdrop l (by simp) hl
        -- a dropped label changes nothing in the region
        have hR : EqOn K₁ K₀ R := fun k hk =>
          (hlocal.frame hstep (disjoint_left.mp hd hk)).trans (hK hk)
        obtain ⟨K₃, h₃, hR'⟩ := hrest K₀ hR
        refine ⟨K₃, ?_, hR'⟩
        rw [List.filter_cons_of_neg (by simpa using hl), h₃]
        simp [keptReplies, hl]

end RedisS2Geo.Foundation
