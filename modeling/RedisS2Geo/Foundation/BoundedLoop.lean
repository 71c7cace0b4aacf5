import Mathlib.Order.Nat

/-!
# Loops with early return and a bound on their rounds

A loop body either returns from the enclosing function or yields the next state.
When every round lowers a measure, a bound of at least the measure is never what
ends the loop.
-/

namespace RedisS2Geo.Foundation

variable {σ ε : Type*}

/-- At most `fuel` rounds of `while (more) { body }`; an error is an early return. -/
def boundedLoop (more : σ → Bool) (body : σ → Except ε σ) : Nat → σ → Except ε σ
  | 0, s => .ok s
  | fuel + 1, s => if more s then (body s).bind (boundedLoop more body fuel) else .ok s

/-- Rounds of a loop lead from one state to another one. -/
inductive Rounds (more : σ → Bool) (body : σ → Except ε σ) : σ → σ → Prop
  | done (s : σ) : Rounds more body s s
  | round {s s' t : σ} (hm : more s = true) (hb : body s = .ok s')
      (h : Rounds more body s' t) : Rounds more body s t

/-- How a loop ends: its condition fails, or a round returns. -/
inductive Exits (more : σ → Bool) (body : σ → Except ε σ) (s : σ) : Except ε σ → Prop
  | regular {t : σ} (h : Rounds more body s t) (hm : more t = false) :
      Exits more body s (.ok t)
  | early {t : σ} {e : ε} (h : Rounds more body s t) (hm : more t = true)
      (hb : body t = .error e) : Exits more body s (.error e)

variable {more : σ → Bool} {body : σ → Except ε σ}

/-- Rounds that lead to states without a next round lead to one state. -/
theorem Rounds.unique {s t t' : σ} (h : Rounds more body s t) (h' : Rounds more body s t')
    (ht : more t = true → ∀ u, body t ≠ .ok u) (ht' : more t' = true → ∀ u, body t' ≠ .ok u) :
    t = t' := by
  induction h with
  | done s =>
      cases h' with
      | done => rfl
      | round hm hb _ => exact absurd hb (ht hm _)
  | @round s s' t hm hb h ih =>
      cases h' with
      | done => exact absurd hb (ht' hm _)
      | round hm' hb' h' =>
          obtain rfl := Except.ok.inj (hb.symm.trans hb')
          exact ih h' ht

/-- After one round a loop ends as its remaining rounds do. -/
theorem Exits.round {s s' : σ} {r : Except ε σ} (hm : more s = true) (hb : body s = .ok s')
    (h : Exits more body s' r) : Exits more body s r := by
  cases h with
  | regular h hm' => exact .regular (.round hm hb h) hm'
  | early h hm' hb' => exact .early (.round hm hb h) hm' hb'

/-- A loop ends in one way only. -/
theorem Exits.unique {s : σ} {r r' : Except ε σ} (h : Exits more body s r)
    (h' : Exits more body s r') : r = r' := by
  cases h with
  | regular h hm =>
      cases h' with
      | regular h' hm' =>
          rw [h.unique h' (by simp [hm]) (by simp [hm'])]
      | early h' hm' hb' =>
          obtain rfl := h.unique h' (by simp [hm]) (by simp [hb'])
          exact absurd hm' (by simp [hm])
  | early h hm hb =>
      cases h' with
      | regular h' hm' =>
          obtain rfl := h.unique h' (by simp [hb]) (by simp [hm'])
          exact absurd hm (by simp [hm'])
      | early h' hm' hb' =>
          obtain rfl := h.unique h' (by simp [hb]) (by simp [hb'])
          exact hb.symm.trans hb'

section
variable (measure : σ → Nat)
variable (hpos : ∀ s, more s = true → 0 < measure s)
variable (hbody : ∀ s s', more s = true → body s = .ok s' → measure s' < measure s)
include hpos hbody

/-- With enough fuel the loop ends as it would without a bound. -/
theorem exits_boundedLoop {fuel : Nat} {s : σ} (hf : measure s ≤ fuel) :
    Exits more body s (boundedLoop more body fuel s) := by
  induction fuel generalizing s with
  | zero =>
      apply Exits.regular (.done s)
      by_contra hm
      have := hpos s (by simpa using hm)
      omega
  | succ fuel ih =>
      rw [boundedLoop]
      cases hm : more s with
      | false => exact .regular (.done s) hm
      | true =>
          cases hb : body s with
          | error e => exact .early (.done s) hm hb
          | ok s' =>
              have hlt := hbody s s' hm hb
              exact .round hm hb (ih (by omega))

/-- The loop ends regularly in the state that its rounds lead to when the condition fails. -/
theorem boundedLoop_eq_ok_iff {fuel : Nat} {s t : σ} (hf : measure s ≤ fuel) :
    boundedLoop more body fuel s = .ok t ↔ Rounds more body s t ∧ more t = false := by
  have hexits := exits_boundedLoop measure hpos hbody hf
  constructor
  · intro h
    rw [h] at hexits
    cases hexits with
    | regular h hm => exact ⟨h, hm⟩
  · rintro ⟨h, hm⟩
    exact hexits.unique (.regular h hm)

/-- The loop returns early from the state in which a round returns. -/
theorem boundedLoop_eq_error_iff {fuel : Nat} {s : σ} {e : ε} (hf : measure s ≤ fuel) :
    boundedLoop more body fuel s = .error e ↔
      ∃ t, Rounds more body s t ∧ more t = true ∧ body t = .error e := by
  have hexits := exits_boundedLoop measure hpos hbody hf
  constructor
  · intro h
    rw [h] at hexits
    cases hexits with
    | early h hm hb => exact ⟨_, h, hm, hb⟩
  · rintro ⟨t, h, hm, hb⟩
    exact hexits.unique (.early h hm hb)

end

end RedisS2Geo.Foundation
