import RedisS2Geo.Foundation.Footprint
import RedisS2Geo.Foundation.Machine

/-!
# Scripts with checks

A script sends labels to a machine and checks the reply to each of them; it ends early at
the first reply that fails its check. Over an abstract machine that is simulated, the
outcome of a script is decided call by call.

## Implementation notes

A label has a kind, and a script names kinds only: the rest of a label is what the
machine is free to choose at each call.
-/

namespace RedisS2Geo.Foundation

variable {S L C O M T P : Type}

/-- A check passes, fails with a message, or brings the machine down. -/
abbrev Checked (M : Type) := Option (Except M Unit)

/-- Send the labels one after the other as long as the replies pass their checks. -/
def runScript (step : L → StateT S Option O) :
    List (L × (O → Checked M)) → StateT S Option (Except M Unit)
  | [] => pure (.ok ())
  | call :: calls => do
      let o ← step call.1
      match call.2 o with
      | none => fun _ => none
      | some (.error e) => pure (.error e)
      | some (.ok ()) => runScript step calls

section Runs
variable {step : L → StateT S Option O} {calls more : List (L × (O → Checked M))}
variable {l : L} {check : O → Checked M} {o : O} {s s' : S} {e : M}

theorem runScript_pass (hs : step l s = some (o, s')) (hc : check o = some (.ok ())) :
    runScript step ((l, check) :: calls) s = runScript step calls s' := by
  change (step l s).bind _ = _
  rw [hs, Option.bind_some]
  simp only [hc]

theorem runScript_fail (hs : step l s = some (o, s')) (hc : check o = some (.error e)) :
    runScript step ((l, check) :: calls) s = some (.error e, s') := by
  change (step l s).bind _ = _
  rw [hs, Option.bind_some]
  simp only [hc]
  rfl

theorem runScript_append_of_ok (h : runScript step calls s = some (.ok (), s')) :
    runScript step (calls ++ more) s = runScript step more s' := by
  induction calls generalizing s with
  | nil =>
      obtain rfl : s = s' := congrArg Prod.snd (Option.some.inj h)
      rfl
  | cons call calls ih =>
      obtain ⟨⟨o, s₁⟩, hs, hrest⟩ := Option.bind_eq_some_iff.mp h
      cases hc : call.2 o with
      | none => simp [hc] at hrest
      | some verdict =>
          cases verdict with
          | error e =>
              simp only [hc] at hrest
              cases hrest
          | ok =>
              simp only [hc] at hrest
              rw [List.cons_append]
              exact (runScript_pass hs hc).trans (ih hrest)

theorem runScript_append_of_error (h : runScript step calls s = some (.error e, s')) :
    runScript step (calls ++ more) s = some (.error e, s') := by
  induction calls generalizing s with
  | nil => cases h
  | cons call calls ih =>
      obtain ⟨⟨o, s₁⟩, hs, hrest⟩ := Option.bind_eq_some_iff.mp h
      cases hc : call.2 o with
      | none => simp [hc] at hrest
      | some verdict =>
          cases verdict with
          | error e' =>
              simp only [hc] at hrest
              obtain ⟨he, rfl⟩ := Prod.mk.inj (Option.some.inj hrest)
              rw [← Except.error.inj he]
              exact runScript_fail hs hc
          | ok =>
              simp only [hc] at hrest
              rw [List.cons_append]
              exact (runScript_pass hs hc).trans (ih hrest)

/-- A script ends in a state that its labels reach. -/
theorem Reachable.runScript {Allowed : L → Prop} {start : S} {r : Except M Unit}
    (h : Reachable step Allowed start s) (hcalls : ∀ call ∈ calls, Allowed call.1)
    (hr : runScript step calls s = some (r, s')) : Reachable step Allowed start s' := by
  induction calls generalizing s with
  | nil =>
      obtain rfl : s = s' := congrArg Prod.snd (Option.some.inj hr)
      exact h
  | cons call calls ih =>
      obtain ⟨⟨o, s₁⟩, hs, hrest⟩ := Option.bind_eq_some_iff.mp hr
      have h₁ : Reachable step Allowed start s₁ := h.step (hcalls call (by simp)) hs
      cases hc : call.2 o with
      | none => simp [hc] at hrest
      | some verdict =>
          cases verdict with
          | error e =>
              simp only [hc] at hrest
              obtain rfl : s₁ = s' := congrArg Prod.snd (Option.some.inj hrest)
              exact h₁
          | ok =>
              simp only [hc] at hrest
              exact ih h₁ (fun call hcall => hcalls call (List.mem_cons_of_mem _ hcall)) hrest

end Runs

/-- A script of local calls is local. -/
theorem Local.runScript {κ ν : Type} {R : Set κ} {step : L → StateT (κ → ν) Option O}
    {calls : List (L × (O → Checked M))} (h : ∀ call ∈ calls, Local R (step call.1)) :
    Local R (runScript step calls) := by
  induction calls with
  | nil => exact Local.pure _
  | cons call calls ih =>
      apply Local.bind (h call (by simp))
      intro o
      cases call.2 o with
      | none => exact Local.dead
      | some verdict =>
          cases verdict with
          | error e => exact Local.pure _
          | ok => exact ih fun call hcall => h call (List.mem_cons_of_mem _ hcall)

/-! ### Deciding a script -/

/-- In every state that stands for `t` and however its calls are made, the script passes and
leads to a state that stands for `t'` if the condition holds, and fails if it does not. -/
def Decides (step : L → StateT S Option O) (kind : L → C) (Rel : S → T → Prop)
    (script : List (C × (O → Checked M))) (t : T) (Condition : Prop) (t' : T) : Prop :=
  ∀ calls : List (L × (O → Checked M)), calls.map (Prod.map kind id) = script → ∀ s, Rel s t →
    (Condition → ∃ s', runScript step calls s = some (.ok (), s') ∧ Rel s' t') ∧
      (¬ Condition → ∃ e s', runScript step calls s = some (.error e, s'))

namespace Decides
variable {step : L → StateT S Option O} {kind : L → C} {Rel : S → T → Prop}
variable {script more : List (C × (O → Checked M))} {t t' t'' : T} {p q : Prop}

theorem nil : Decides step kind Rel ([] : List (C × (O → Checked M))) t True t := by
  intro calls hcalls s hs
  obtain rfl := List.map_eq_nil_iff.mp hcalls
  exact ⟨fun _ => ⟨s, rfl, hs⟩, fun hno => absurd trivial hno⟩

theorem append (h : Decides step kind Rel script t p t')
    (h' : Decides step kind Rel more t' q t'') :
    Decides step kind Rel (script ++ more) t (p ∧ q) t'' := by
  intro calls hcalls s hs
  obtain ⟨first, second, rfl, hfirst, hsecond⟩ := List.map_eq_append_iff.mp hcalls
  obtain ⟨hpass, hfail⟩ := h first hfirst s hs
  by_cases hp : p
  · obtain ⟨s₁, hrun, hs₁⟩ := hpass hp
    rw [runScript_append_of_ok hrun]
    obtain ⟨hpass', hfail'⟩ := h' second hsecond s₁ hs₁
    exact ⟨fun hpq => hpass' hpq.2, fun hno => hfail' fun hq => hno ⟨hp, hq⟩⟩
  · obtain ⟨e, s₁, hrun⟩ := hfail hp
    rw [runScript_append_of_error hrun]
    exact ⟨fun hpq => absurd hpq.1 hp, fun _ => ⟨e, s₁, rfl⟩⟩

theorem congr (h : Decides step kind Rel script t p t') (hpq : p ↔ q) :
    Decides step kind Rel script t q t' := propext hpq ▸ h

/-- One call is decided by the check of its reply. -/
theorem call {c : C} {check : O → Checked M}
    (h : ∀ l s, kind l = c → Rel s t → ∃ o s', step l s = some (o, s') ∧
      (p → check o = some (.ok ()) ∧ Rel s' t') ∧ (¬ p → ∃ e, check o = some (.error e))) :
    Decides step kind Rel [(c, check)] t p t' := by
  intro calls hcalls s hs
  obtain ⟨⟨l, check'⟩, rfl, hcall⟩ := List.map_eq_singleton_iff.mp hcalls
  obtain ⟨hkind, rfl⟩ : kind l = c ∧ check' = check := by simpa using hcall
  obtain ⟨o, s', hstep, hpass, hfail⟩ := h l s hkind hs
  constructor
  · intro hp
    obtain ⟨hcheck, hrel⟩ := hpass hp
    exact ⟨s', runScript_pass hstep hcheck, hrel⟩
  · intro hp
    obtain ⟨e, he⟩ := hfail hp
    exact ⟨e, s', runScript_fail hstep he⟩

end Decides

end RedisS2Geo.Foundation
