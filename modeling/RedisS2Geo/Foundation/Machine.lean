import Mathlib.Data.List.Forall2

/-!
# Runs of a machine with replies

A step reads a label and a state and yields a reply with the next state, or
nothing when the machine dies. An invariant is proved once for every reachable
state, and a simulation once for every run.
-/

namespace RedisS2Geo.Foundation

variable {S L O T P : Type*}

/-- One step of a machine with labels `L` and replies `O`. -/
abbrev Step (S L O : Type*) := L → S → Option (O × S)

/-- The replies and the final state of a sequence of labels. -/
def run (step : Step S L O) : List L → S → Option (List O × S)
  | [], s => some ([], s)
  | l :: ls, s => (step l s).bind fun r => (run step ls r.2).map fun q => (r.1 :: q.1, q.2)

@[simp] theorem run_nil (step : Step S L O) (s : S) : run step [] s = some ([], s) := rfl

theorem run_cons_eq_some {step : Step S L O} {l : L} {ls : List L} {s t : S} {os : List O} :
    run step (l :: ls) s = some (os, t) ↔
      ∃ o s' os', step l s = some (o, s') ∧ run step ls s' = some (os', t) ∧ os = o :: os' := by
  constructor
  · intro h
    simp only [run, Option.bind_eq_some_iff, Option.map_eq_some_iff] at h
    obtain ⟨⟨o, s'⟩, hs, ⟨os', t'⟩, hr, he⟩ := h
    simp only [Prod.mk.injEq] at he
    obtain ⟨rfl, rfl⟩ := he
    exact ⟨o, s', os', hs, hr, rfl⟩
  · rintro ⟨o, s', os', hs, hr, rfl⟩
    simp [run, hs, hr]

/-- States reached from `start` by labels that satisfy `Allowed`. -/
inductive Reachable (step : Step S L O) (Allowed : L → Prop) (start : S) : S → Prop
  | start : Reachable step Allowed start start
  | step {s t l o} (h : Reachable step Allowed start s) (hl : Allowed l)
      (hs : step l s = some (o, t)) : Reachable step Allowed start t

/-- What holds at the start and is preserved by every allowed step holds of every
reachable state. -/
theorem Reachable.invariant {step : Step S L O} {Allowed : L → Prop} {start s : S}
    (Inv : S → Prop) (h : Reachable step Allowed start s) (hstart : Inv start)
    (hstep : ∀ l s o t, Allowed l → Inv s → step l s = some (o, t) → Inv t) : Inv s := by
  induction h with
  | start => exact hstart
  | step _ hl hs ih => exact hstep _ _ _ _ hl ih hs

/-- States reached from `start` by steps that satisfy `Allowed` in the state before them. -/
inductive ReachableWhen (step : Step S L O) (Allowed : S → L → Prop) (start : S) : S → Prop
  | start : ReachableWhen step Allowed start start
  | step {s t l o} (h : ReachableWhen step Allowed start s) (hl : Allowed s l)
      (hs : step l s = some (o, t)) : ReachableWhen step Allowed start t

theorem ReachableWhen.invariant {step : Step S L O} {Allowed : S → L → Prop} {start s : S}
    (Inv : S → Prop) (h : ReachableWhen step Allowed start s) (hstart : Inv start)
    (hstep : ∀ l s o t, Allowed s l → Inv s → step l s = some (o, t) → Inv t) : Inv s := by
  induction h with
  | start => exact hstart
  | step _ hl hs ih => exact hstep _ _ _ _ hl ih hs

/-- A run of allowed labels stays within the reachable states. -/
theorem Reachable.run {step : Step S L O} {Allowed : L → Prop} {start s t : S} {ls : List L}
    {os : List O} (h : Reachable step Allowed start s) (hls : ∀ l ∈ ls, Allowed l)
    (hr : Foundation.run step ls s = some (os, t)) : Reachable step Allowed start t := by
  induction ls generalizing s os with
  | nil =>
      obtain ⟨-, rfl⟩ : [] = os ∧ s = t := by simpa using hr
      exact h
  | cons l ls ih =>
      obtain ⟨o, s', os', hs, hr', -⟩ := run_cons_eq_some.mp hr
      exact ih (h.step (hls l (by simp)) hs) (fun k hk => hls k (by simp [hk])) hr'

/-! ### Simulation by a total machine -/

/-- The run of a machine that never dies. -/
def totalRun (step : L → T → P × T) : List L → T → List P × T
  | [], t => ([], t)
  | l :: ls, t =>
      let r := step l t
      let q := totalRun step ls r.2
      (r.1 :: q.1, q.2)

/-- Every allowed step of the concrete machine succeeds, answers as the abstract one
does, and keeps the two states related. -/
def Simulates (step : Step S L O) (abstractStep : L → T → P × T) (Allowed : L → Prop)
    (Rel : S → T → Prop) (Answers : O → P → Prop) : Prop :=
  ∀ l s t, Allowed l → Rel s t → ∃ o s', step l s = some (o, s') ∧
    Answers o (abstractStep l t).1 ∧ Rel s' (abstractStep l t).2

/-- A simulation of steps is a simulation of runs. -/
theorem Simulates.run {step : Step S L O} {abstractStep : L → T → P × T} {Allowed : L → Prop}
    {Rel : S → T → Prop} {Answers : O → P → Prop}
    (h : Simulates step abstractStep Allowed Rel Answers) {ls : List L}
    (hls : ∀ l ∈ ls, Allowed l) {s : S} {t : T} (hst : Rel s t) :
    ∃ os s', Foundation.run step ls s = some (os, s') ∧
      List.Forall₂ Answers os (totalRun abstractStep ls t).1 ∧
      Rel s' (totalRun abstractStep ls t).2 := by
  induction ls generalizing s t with
  | nil => exact ⟨[], s, rfl, .nil, hst⟩
  | cons l ls ih =>
      obtain ⟨o, s', hs, ho, hrel⟩ := h l s t (hls l (by simp)) hst
      obtain ⟨os, s'', hr, hos, hrel'⟩ := ih (fun k hk => hls k (by simp [hk])) hrel
      exact ⟨o :: os, s'', run_cons_eq_some.mpr ⟨o, s', os, hs, hr, rfl⟩, .cons ho hos, hrel'⟩

end RedisS2Geo.Foundation
