import RedisS2Geo.Foundation.BoundedLoop

/-!
# Relations between two loops

Two loops whose rounds keep a relation between their states end in related results.
This is how a loop is shown not to depend on a part of its initial state: the relation
says which parts have to agree in which state.
-/

namespace RedisS2Geo.Foundation

variable {σ τ ε : Type*}

/-- The same error, or related values. -/
inductive SameResult (Rel : σ → τ → Prop) : Except ε σ → Except ε τ → Prop
  | ok {s : σ} {t : τ} (h : Rel s t) : SameResult Rel (.ok s) (.ok t)
  | error (e : ε) : SameResult Rel (.error e) (.error e)

/-- Both sides take the same branch. -/
theorem SameResult.ite {Rel : σ → τ → Prop} {p : Prop} [Decidable p] {a a' : Except ε σ}
    {b b' : Except ε τ} (h : p → SameResult Rel a b) (h' : ¬ p → SameResult Rel a' b') :
    SameResult Rel (if p then a else a') (if p then b else b') := by
  split
  · exact h ‹_›
  · exact h' ‹_›

/-- Loops with related rounds have related results, at every bound on the rounds. -/
theorem boundedLoop_related {Rel : σ → τ → Prop} {more : σ → Bool} {more' : τ → Bool}
    {round : σ → Except ε σ} {round' : τ → Except ε τ}
    (hmore : ∀ s t, Rel s t → more s = more' t)
    (hround : ∀ s t, Rel s t → SameResult Rel (round s) (round' t)) (fuel : Nat) {s : σ} {t : τ}
    (h : Rel s t) :
    SameResult Rel (boundedLoop more round fuel s) (boundedLoop more' round' fuel t) := by
  induction fuel generalizing s t with
  | zero => exact .ok h
  | succ fuel ih =>
      rw [boundedLoop, boundedLoop, ← hmore s t h]
      cases more s with
      | false => exact .ok h
      | true =>
          rw [if_pos rfl, if_pos rfl]
          generalize hr : round s = r
          generalize hr' : round' t = r'
          have hstep : SameResult Rel r r' := hr ▸ hr' ▸ hround s t h
          cases hstep with
          | ok h' => exact ih h'
          | error e => exact .error e

end RedisS2Geo.Foundation
