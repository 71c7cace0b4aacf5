import Mathlib.Data.List.Induction
import RedisS2Geo.Foundation.BoundedLoop
import RedisS2Geo.Foundation.Scanning

/-!
# Machines that read tokens

A token machine moves from state to state and refuses a token that may not follow.
It recognises the legal prefixes of a language when each state knows the tokens
that led to it and can be completed to a sentence. A loop over a text scans by
such a machine when each of its rounds reads one blank or one token; what the
loop returns is then told by what can be read.
-/

namespace RedisS2Geo.Foundation

variable {α τ σ ρ ε : Type*} {L : Lexer α τ} {Language : List τ → Prop}

/-! ### Runs over tokens -/

/-- Read tokens one after the other. -/
def runTokens (step : σ → τ → Option σ) : σ → List τ → Option σ
  | q, [] => some q
  | q, t :: ts => (step q t).bind fun q' => runTokens step q' ts

@[simp] theorem runTokens_nil (step : σ → τ → Option σ) (q : σ) :
    runTokens step q [] = some q := rfl

@[simp] theorem runTokens_cons (step : σ → τ → Option σ) (q : σ) (t : τ) (ts : List τ) :
    runTokens step q (t :: ts) = (step q t).bind fun q' => runTokens step q' ts := rfl

theorem runTokens_append (step : σ → τ → Option σ) (q : σ) (ts us : List τ) :
    runTokens step q (ts ++ us) =
      (runTokens step q ts).bind fun q' => runTokens step q' us := by
  induction ts generalizing q with
  | nil => rfl
  | cons t ts ih =>
      cases h : step q t with
      | none => simp [h]
      | some q' => simp [h, ih]

/-- What holds of the first state and is kept by every step holds of the last state. -/
theorem runTokens_invariant {step : σ → τ → Option σ} (Inv : σ → Prop)
    (hstep : ∀ q t q', Inv q → step q t = some q' → Inv q') {q q' : σ} {ts : List τ}
    (hq : Inv q) (h : runTokens step q ts = some q') : Inv q' := by
  induction ts generalizing q with
  | nil =>
      obtain rfl : q = q' := by simpa using h
      exact hq
  | cons t ts ih =>
      obtain ⟨q₁, hs, hr⟩ := Option.bind_eq_some_iff.mp h
      exact ih (hstep q t q₁ hq hs) hr

/-! ### Recognising legal prefixes -/

/-- A machine whose valid states spell out the tokens read so far, can be completed to a
sentence, and that reads every sentence. -/
structure Recognizer (step : σ → τ → Option σ) (start : σ) (Language : List τ → Prop) where
  Valid : σ → Prop
  spell : σ → List τ
  valid_start : Valid start
  spell_start : spell start = []
  valid_step : ∀ {q t q'}, Valid q → step q t = some q' → Valid q'
  spell_step : ∀ {q t q'}, Valid q → step q t = some q' → spell q' = spell q ++ [t]
  legal : ∀ {q}, Valid q → LegalPrefix Language (spell q)
  accepts : ∀ {ts}, Language ts → ∃ q, runTokens step start ts = some q

namespace Recognizer
variable {step : σ → τ → Option σ} {start q : σ} {ts : List τ}
variable (R : Recognizer step start Language)
include R

theorem valid (h : runTokens step start ts = some q) : R.Valid q :=
  runTokens_invariant R.Valid (fun _ _ _ => R.valid_step) R.valid_start h

/-- A state spells out the tokens that led to it. -/
theorem spell_eq (h : runTokens step start ts = some q) : R.spell q = ts := by
  induction ts using List.reverseRecOn generalizing q with
  | nil =>
      obtain rfl : start = q := by simpa using h
      exact R.spell_start
  | append_singleton ts t ih =>
      rw [runTokens_append] at h
      obtain ⟨q', hts, ht⟩ := Option.bind_eq_some_iff.mp h
      have hstep : step q' t = some q := by simpa using ht
      rw [R.spell_step (R.valid hts) hstep, ih hts]

/-- The machine reads exactly the legal prefixes. -/
theorem exists_run_iff : (∃ q, runTokens step start ts = some q) ↔ LegalPrefix Language ts := by
  constructor
  · rintro ⟨q, h⟩
    have hlegal := R.legal (R.valid h)
    rwa [R.spell_eq h] at hlegal
  · rintro ⟨us, hus⟩
    obtain ⟨q, hq⟩ := R.accepts hus
    rw [runTokens_append] at hq
    obtain ⟨q', hts, -⟩ := Option.bind_eq_some_iff.mp hq
    exact ⟨q', hts⟩

/-- Where the machine refuses the next token, it is no legal one. -/
theorem step_eq_none_iff (h : runTokens step start ts = some q) {t : τ} :
    step q t = none ↔ ¬ LegalPrefix Language (ts ++ [t]) := by
  rw [← R.exists_run_iff, runTokens_append, h]
  cases hs : step q t <;> simp [hs]

/-- Reading stops where the machine does. -/
theorem stopsAt {text : List α} {k : Nat} (hread : Reads L text 0 ts k)
    (hrun : runTokens step start ts = some q) (hblank : ∀ c, text[k]? = some c → ¬ L.blank c)
    (hstep : ∀ t n, L.lex (text.drop k) = some (t, n) → step q t = none) :
    StopsAt L Language text k := by
  refine ⟨ts, hread, R.exists_run_iff.mp ⟨q, hrun⟩, hblank, ?_⟩
  intro t n ht
  exact (R.step_eq_none_iff hrun).mp (hstep t n ht)

theorem stopsAt_end {text : List α} (hread : Reads L text 0 ts text.length)
    (hrun : runTokens step start ts = some q) : StopsAt L Language text text.length := by
  apply R.stopsAt hread hrun
  · intro c hc
    simp at hc
  · intro t n ht
    exact absurd (Lexer.lt_length ht) (lt_irrefl _)

/-- A language is prefix-free when its machine reads nothing behind a sentence. -/
theorem prefixFree (hend : ∀ ts q, Language ts → runTokens step start ts = some q →
    ∀ t, step q t = none) : PrefixFree Language := by
  intro ts us hts hus
  obtain ⟨q', hrun⟩ := R.accepts hus
  rw [runTokens_append] at hrun
  obtain ⟨q, hq, hrest⟩ := Option.bind_eq_some_iff.mp hrun
  cases us with
  | nil => rfl
  | cons t us => simp [hend ts q hts hq t] at hrest

end Recognizer

/-! ### Limits -/

/-- The machine that reads no further from a state that has reached a limit. -/
def capped (limit : σ → Option ε) (step : σ → τ → Option σ) (q : σ) (t : τ) : Option σ :=
  match limit q with
  | none => step q t
  | some _ => none

theorem capped_eq_some_iff {limit : σ → Option ε} {step : σ → τ → Option σ} {q q' : σ} {t : τ} :
    capped limit step q t = some q' ↔ limit q = none ∧ step q t = some q' := by
  cases h : limit q <;> simp [capped, h]

theorem run_of_capped {limit : σ → Option ε} {step : σ → τ → Option σ} {q q' : σ} {ts : List τ}
    (h : runTokens (capped limit step) q ts = some q') : runTokens step q ts = some q' := by
  induction ts generalizing q with
  | nil => exact h
  | cons t ts ih =>
      obtain ⟨q₁, hs, hr⟩ := Option.bind_eq_some_iff.mp h
      exact Option.bind_eq_some_iff.mpr ⟨q₁, (capped_eq_some_iff.mp hs).2, ih hr⟩

/-- A run below the limits does not pass a state that has reached one. -/
theorem eq_nil_of_capped {limit : σ → Option ε} {step : σ → τ → Option σ} {q q₁ q₂ : σ} {e : ε}
    {ts us : List τ} (h : runTokens (capped limit step) q (ts ++ us) = some q₂)
    (hts : runTokens step q ts = some q₁) (hl : limit q₁ = some e) : us = [] := by
  rw [runTokens_append] at h
  obtain ⟨q', hq', hrest⟩ := Option.bind_eq_some_iff.mp h
  obtain rfl : q' = q₁ := by simpa [run_of_capped hq'] using hts
  cases us with
  | nil => rfl
  | cons t us => simp [capped, hl] at hrest

/-- A run either stays below the limits or gets to the first state that has reached one. -/
theorem run_capped_or_limit {limit : σ → Option ε} {step : σ → τ → Option σ} {q q' : σ}
    {ts : List τ} (h : runTokens step q ts = some q') :
    runTokens (capped limit step) q ts = some q' ∨
      ∃ us t vs q₁ q₂ e, ts = us ++ t :: vs ∧ runTokens (capped limit step) q us = some q₁ ∧
        step q₁ t = some q₂ ∧ limit q₁ = some e := by
  induction ts generalizing q with
  | nil => exact Or.inl h
  | cons t ts ih =>
      obtain ⟨q₁, hs, hr⟩ := Option.bind_eq_some_iff.mp h
      cases hl : limit q with
      | some e => exact Or.inr ⟨[], t, ts, q, q₁, e, rfl, rfl, hs, hl⟩
      | none =>
          have hs' : capped limit step q t = some q₁ := capped_eq_some_iff.mpr ⟨hl, hs⟩
          rcases ih hr with hrun | ⟨us, u, vs, p, p', e, rfl, hus, hu, he⟩
          · exact Or.inl (Option.bind_eq_some_iff.mpr ⟨q₁, hs', hrun⟩)
          · exact Or.inr ⟨t :: us, u, vs, p, p', e, rfl,
              Option.bind_eq_some_iff.mpr ⟨q₁, hs', hus⟩, hu, he⟩

/-! ### Loops that scan a text -/

/-- What a round makes of the token at its position: what cannot be read fails there, and a
limit is an early return of its own. -/
def respond (step : σ → τ → Option σ) (limit : σ → Option ε) (fail : Nat → ε)
    (state : σ → Nat → ρ) (q : σ) (i : Nat) : Option (τ × Nat) → Except ε ρ
  | none => .error (fail i)
  | some (t, n) =>
      match step q t, limit q with
      | none, _ => .error (fail i)
      | some _, some e => .error e
      | some q', none => .ok (state q' (i + n))

/-- The rounds of a loop read one blank or one token each. The state of the loop is made of
a state of the machine and a position. -/
structure ScansBy (L : Lexer α τ) (step : σ → τ → Option σ) (limit : σ → Option ε)
    (fail : Nat → ε) (text : List α) (more : ρ → Bool) (round : ρ → Except ε ρ)
    (state : σ → Nat → ρ) : Prop where
  more_iff : ∀ q i, more (state q i) = true ↔ i < text.length
  blank : ∀ {q i c}, text[i]? = some c → L.blank c → round (state q i) = .ok (state q (i + 1))
  token : ∀ {q i c}, text[i]? = some c → ¬ L.blank c →
    round (state q i) = respond step limit fail state q i (L.lex (text.drop i))

/-- Why a scan returns early in a state at a position. -/
inductive Halts (L : Lexer α τ) (step : σ → τ → Option σ) (limit : σ → Option ε)
    (fail : Nat → ε) (text : List α) (q : σ) (i : Nat) : ε → Prop
  | fail {c : α} (hc : text[i]? = some c) (hb : ¬ L.blank c)
      (ht : ∀ t n, L.lex (text.drop i) = some (t, n) → step q t = none) :
      Halts L step limit fail text q i (fail i)
  | limit {t : τ} {n : Nat} {q' : σ} {e : ε} (ht : L.lex (text.drop i) = some (t, n))
      (hs : step q t = some q') (hl : limit q = some e) :
      Halts L step limit fail text q i e

/-- A reading whose machine has reached a limit makes the scan return at some limit, no later
than there. -/
theorem exists_limit {step : σ → τ → Option σ} {limit : σ → Option ε} {text : List α}
    {start q q' : σ} {ts : List τ} {k n : Nat} {t : τ} {e : ε} (hread : Reads L text 0 ts k)
    (hrun : runTokens step start ts = some q) (ht : L.lex (text.drop k) = some (t, n))
    (hs : step q t = some q') (hl : limit q = some e) :
    ∃ us m p p' u n' e', m ≤ k ∧ Reads L text 0 us m ∧
      runTokens (capped limit step) start us = some p ∧
        L.lex (text.drop m) = some (u, n') ∧ step p u = some p' ∧ limit p = some e' := by
  rcases run_capped_or_limit hrun with hcap | ⟨us, u, vs, p, p', e', rfl, hus, hu, he⟩
  · exact ⟨ts, k, q, q', t, n, e, le_rfl, hread, hcap, ht, hs, hl⟩
  · obtain ⟨m, n', hbefore, hlex, hrest⟩ := hread.exists_token_after
    have hm : m ≤ k := le_trans (Nat.le_add_right m n') hrest.le
    exact ⟨us, m, p, p', u, n', e', hm, hbefore, hus, hlex, hu, he⟩

/-- The limit at which a scan returns lies before every other state that has reached one. -/
theorem lt_of_limit {step : σ → τ → Option σ} {limit : σ → Option ε} {text : List α}
    {start p q : σ} {ts us : List τ} {j k : Nat} {e : ε} (hread : Reads L text 0 ts j)
    (hrun : runTokens (capped limit step) start ts = some p) (hread' : Reads L text 0 us k)
    (hrun' : runTokens step start us = some q) (hl : limit q = some e) (hne : p ≠ q) :
    j < k := by
  have hts : ts ≠ us := by
    rintro rfl
    rw [run_of_capped hrun] at hrun'
    exact hne (Option.some.inj hrun')
  rcases hread.compare hread' with ⟨vs, rfl, hvs⟩ | ⟨vs, rfl, -⟩
  · apply lt_of_le_of_ne hvs.le
    rintro rfl
    exact hts (hread.unique hread')
  · have hnil := eq_nil_of_capped hrun hrun' hl
    exact absurd (by simp [hnil]) hts

namespace ScansBy
variable {step : σ → τ → Option σ} {limit : σ → Option ε} {fail : Nat → ε} {text : List α}
variable {more : ρ → Bool} {round : ρ → Except ε ρ} {state : σ → Nat → ρ} {q : σ} {i : Nat}
variable (H : ScansBy L step limit fail text more round state)
include H

theorem at_token {t : τ} {n : Nat} (ht : L.lex (text.drop i) = some (t, n)) :
    round (state q i) = respond step limit fail state q i (some (t, n)) := by
  have hi := Lexer.lt_length ht
  have hc : text[i]? = some text[i] := List.getElem?_eq_getElem hi
  have hb : ¬ L.blank text[i] := by
    intro hb
    rw [Lexer.lex_drop_of_blank hc hb] at ht
    cases ht
  rw [H.token hc hb, ht]

/-- What a round does is told by what stands at its position. -/
theorem round_cases (q : σ) (hi : i < text.length) :
    (∃ c, text[i]? = some c ∧ L.blank c ∧ round (state q i) = .ok (state q (i + 1))) ∨
    (∃ t n q', L.lex (text.drop i) = some (t, n) ∧ capped limit step q t = some q' ∧
      round (state q i) = .ok (state q' (i + n))) ∨
    ∃ e, Halts L step limit fail text q i e ∧ round (state q i) = .error e := by
  have hc : text[i]? = some text[i] := List.getElem?_eq_getElem hi
  by_cases hb : L.blank text[i]
  · exact Or.inl ⟨_, hc, hb, H.blank hc hb⟩
  · cases ht : L.lex (text.drop i) with
    | none =>
        have hnone : ∀ t n, L.lex (text.drop i) = some (t, n) → step q t = none := by
          intro t n h
          rw [ht] at h
          cases h
        exact Or.inr (Or.inr ⟨_, .fail hc hb hnone, by simp [H.token hc hb, ht, respond]⟩)
    | some r =>
        obtain ⟨t, n⟩ := r
        cases hs : step q t with
        | none =>
            have hnone : ∀ t n, L.lex (text.drop i) = some (t, n) → step q t = none := by
              intro t' n' h
              obtain ⟨rfl, -⟩ : t = t' ∧ n = n' := by simpa [ht] using h
              exact hs
            exact Or.inr (Or.inr ⟨_, .fail hc hb hnone, by simp [H.at_token ht, respond, hs]⟩)
        | some q' =>
            cases hl : limit q with
            | none =>
                exact Or.inr (Or.inl ⟨t, n, q', rfl, capped_eq_some_iff.mpr ⟨hl, hs⟩,
                  by simp [H.at_token ht, respond, hs, hl]⟩)
            | some e =>
                exact Or.inr (Or.inr ⟨e, .limit ht hs hl,
                  by simp [H.at_token ht, respond, hs, hl]⟩)

/-- The rounds of the loop are the readings of the text below the limits. -/
theorem rounds_iff {r : ρ} :
    Rounds more round (state q i) r ↔ ∃ ts j q', r = state q' j ∧ Reads L text i ts j ∧
      runTokens (capped limit step) q ts = some q' := by
  constructor
  · intro h
    generalize hs : state q i = s at h
    induction h generalizing q i with
    | done => exact ⟨[], i, q, hs.symm, .done i, rfl⟩
    | @round s s' r hm hb h ih =>
        subst hs
        rcases H.round_cases q ((H.more_iff q i).mp hm) with
          ⟨c, hc, hblank, he⟩ | ⟨t, n, q', ht, hcap, he⟩ | ⟨e, -, he⟩
        · obtain rfl : state q (i + 1) = s' := by simpa [hb] using he.symm
          obtain ⟨ts, j, q', rfl, hr, hrun⟩ := ih rfl
          exact ⟨ts, j, q', rfl, .blank hc hblank hr, hrun⟩
        · obtain rfl : state q' (i + n) = s' := by simpa [hb] using he.symm
          obtain ⟨ts, j, q'', rfl, hr, hrun⟩ := ih rfl
          exact ⟨t :: ts, j, q'', rfl, .token ht hr,
            Option.bind_eq_some_iff.mpr ⟨q', hcap, hrun⟩⟩
        · rw [hb] at he
          cases he
  · rintro ⟨ts, j, q', rfl, hr, hrun⟩
    induction hr generalizing q with
    | done i =>
        obtain rfl : q = q' := by simpa using hrun
        exact .done _
    | blank hc hb _ ih =>
        obtain ⟨hi, -⟩ := List.getElem?_eq_some_iff.mp hc
        exact .round ((H.more_iff _ _).mpr hi) (H.blank hc hb) (ih hrun)
    | token ht _ ih =>
        obtain ⟨q₁, hcap, hrest⟩ := Option.bind_eq_some_iff.mp hrun
        obtain ⟨hl, hs⟩ := capped_eq_some_iff.mp hcap
        apply Rounds.round ((H.more_iff _ _).mpr (Lexer.lt_length ht)) _ (ih hrest)
        simp [H.at_token ht, respond, hs, hl]

/-- The early returns of the loop. -/
theorem exists_error_iff {e : ε} :
    (∃ r, Rounds more round (state q i) r ∧ more r = true ∧ round r = .error e) ↔
      ∃ ts j q', Reads L text i ts j ∧ runTokens (capped limit step) q ts = some q' ∧
        Halts L step limit fail text q' j e := by
  constructor
  · rintro ⟨r, hr, hm, he⟩
    obtain ⟨ts, j, q', rfl, hread, hrun⟩ := H.rounds_iff.mp hr
    refine ⟨ts, j, q', hread, hrun, ?_⟩
    rcases H.round_cases q' ((H.more_iff q' j).mp hm) with
      ⟨_, _, _, ho⟩ | ⟨_, _, _, _, _, ho⟩ | ⟨e', hh, ho⟩
    · rw [he] at ho
      cases ho
    · rw [he] at ho
      cases ho
    · obtain rfl : e = e' := by simpa [he] using ho
      exact hh
  · rintro ⟨ts, j, q', hread, hrun, hh⟩
    have hr := H.rounds_iff.mpr ⟨ts, j, q', rfl, hread, hrun⟩
    cases hh with
    | fail hc hb ht =>
        obtain ⟨hj, -⟩ := List.getElem?_eq_some_iff.mp hc
        refine ⟨_, hr, (H.more_iff _ _).mpr hj, ?_⟩
        cases hlex : L.lex (text.drop j) with
        | none => simp [H.token hc hb, hlex, respond]
        | some r => simp [H.at_token hlex, respond, ht _ _ hlex]
    | limit ht hs hl =>
        refine ⟨_, hr, (H.more_iff _ _).mpr (Lexer.lt_length ht), ?_⟩
        simp [H.at_token ht, respond, hs, hl]

/-- The regular ends of the loop. -/
theorem exists_end_iff {r : ρ} :
    Rounds more round (state q i) r ∧ more r = false ↔
      ∃ ts j q', r = state q' j ∧ Reads L text i ts j ∧
        runTokens (capped limit step) q ts = some q' ∧ text.length ≤ j := by
  constructor
  · rintro ⟨hr, hm⟩
    obtain ⟨ts, j, q', rfl, hread, hrun⟩ := H.rounds_iff.mp hr
    refine ⟨ts, j, q', rfl, hread, hrun, ?_⟩
    by_contra hj
    rw [(H.more_iff q' j).mpr (by omega)] at hm
    cases hm
  · rintro ⟨ts, j, q', rfl, hread, hrun, hj⟩
    refine ⟨H.rounds_iff.mpr ⟨ts, j, q', rfl, hread, hrun⟩, ?_⟩
    by_contra hm
    have := (H.more_iff q' j).mp (by simpa using hm)
    omega

end ScansBy

end RedisS2Geo.Foundation
