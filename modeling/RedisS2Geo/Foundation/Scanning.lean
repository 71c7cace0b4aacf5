import Mathlib.Data.List.Basic
import Mathlib.Order.Nat

/-!
# Reading a text token by token

A lexer recognises blanks and the token at the start of what remains of a text.
Reading is told by positions: it goes over blanks and tokens from one position to
a later one. Two readings from the same position agree as far as the shorter one
goes.
-/

namespace RedisS2Geo.Foundation

/-- A lexer gives the token at the start of a text with its length. No token starts with a
blank, and none is empty. -/
structure Lexer (α τ : Type*) where
  blank : α → Prop
  lex : List α → Option (τ × Nat)
  lex_nil : lex [] = none
  lex_blank : ∀ {c s}, blank c → lex (c :: s) = none
  pos : ∀ {s t n}, lex s = some (t, n) → 0 < n

variable {α τ : Type*} (L : Lexer α τ)

/-- Blanks and tokens of a text between two positions. -/
inductive Reads (text : List α) : Nat → List τ → Nat → Prop
  | done (i : Nat) : Reads text i [] i
  | blank {i j : Nat} {c : α} {ts : List τ} (hc : text[i]? = some c) (hb : L.blank c)
      (h : Reads text (i + 1) ts j) : Reads text i ts j
  | token {i j n : Nat} {t : τ} {ts : List τ} (ht : L.lex (text.drop i) = some (t, n))
      (h : Reads text (i + n) ts j) : Reads text i (t :: ts) j

/-- The whole text consists of these tokens, with blanks around them. -/
def Spells (text : List α) (ts : List τ) : Prop := Reads L text 0 ts text.length

variable {L} {text : List α} {i j k n : Nat} {t : τ} {ts us : List τ} {c : α}

theorem Lexer.lex_drop_of_blank (hc : text[i]? = some c) (hb : L.blank c) :
    L.lex (text.drop i) = none := by
  obtain ⟨hi, rfl⟩ := List.getElem?_eq_some_iff.mp hc
  rw [List.drop_eq_getElem_cons hi]
  exact L.lex_blank hb

theorem Lexer.lt_length (h : L.lex (text.drop i) = some (t, n)) : i < text.length := by
  by_contra hi
  rw [List.drop_eq_nil_of_le (by omega), L.lex_nil] at h
  cases h

namespace Reads

theorem le (h : Reads L text i ts j) : i ≤ j := by
  induction h with
  | done => exact le_rfl
  | blank _ _ _ ih => omega
  | token ht _ ih => omega

theorem append (h : Reads L text i ts j) (h' : Reads L text j us k) :
    Reads L text i (ts ++ us) k := by
  induction h with
  | done => exact h'
  | blank hc hb _ ih => exact .blank hc hb (ih h')
  | token ht _ ih => exact .token ht (ih h')

theorem single (ht : L.lex (text.drop i) = some (t, n)) : Reads L text i [t] (i + n) :=
  .token ht (.done _)

/-- A reading stops between any two of its tokens. -/
theorem split (h : Reads L text i (ts ++ us) k) :
    ∃ j, Reads L text i ts j ∧ Reads L text j us k := by
  generalize hts : ts ++ us = vs at h
  induction h generalizing ts with
  | done i =>
      obtain ⟨rfl, rfl⟩ := List.append_eq_nil_iff.mp hts
      exact ⟨i, .done i, .done i⟩
  | blank hc hb _ ih =>
      obtain ⟨j, h₁, h₂⟩ := ih hts
      exact ⟨j, .blank hc hb h₁, h₂⟩
  | @token i k n t rest ht h ih =>
      cases ts with
      | nil =>
          obtain rfl : us = t :: rest := hts
          exact ⟨i, .done i, .token ht h⟩
      | cons t' ts =>
          obtain ⟨rfl, hrest⟩ := List.cons.inj hts
          obtain ⟨j, h₁, h₂⟩ := ih hrest
          exact ⟨j, .token ht h₁, h₂⟩

/-- Up to its first token a reading goes over blanks. -/
theorem exists_token (h : Reads L text i (t :: ts) k) :
    ∃ j n, Reads L text i [] j ∧ L.lex (text.drop j) = some (t, n) ∧
      Reads L text (j + n) ts k := by
  generalize hts : t :: ts = vs at h
  induction h with
  | done => cases hts
  | blank hc hb _ ih =>
      obtain ⟨j, n, h₁, ht, h₂⟩ := ih hts
      exact ⟨j, n, .blank hc hb h₁, ht, h₂⟩
  | @token i k n t' rest ht h ih =>
      obtain ⟨rfl, rfl⟩ := List.cons.inj hts
      exact ⟨i, n, .done i, ht, h⟩

/-- Any token of a reading is lexed where the tokens before it and the blanks behind them
have been read. -/
theorem exists_token_after (h : Reads L text i (ts ++ t :: us) k) :
    ∃ j n, Reads L text i ts j ∧ L.lex (text.drop j) = some (t, n) ∧
      Reads L text (j + n) us k := by
  obtain ⟨m, hbefore, hrest⟩ := h.split
  obtain ⟨j, n, hblanks, ht, hafter⟩ := hrest.exists_token
  have hread : Reads L text i ts j := by simpa using hbefore.append hblanks
  exact ⟨j, n, hread, ht, hafter⟩

/-- Of two readings from one position one goes on where the other one stops. -/
theorem compare (h : Reads L text i ts j) (h' : Reads L text i us k) :
    (∃ vs, us = ts ++ vs ∧ Reads L text j vs k) ∨
      ∃ vs, ts = us ++ vs ∧ Reads L text k vs j := by
  induction h generalizing us k with
  | done i => exact Or.inl ⟨us, rfl, h'⟩
  | @blank i j c ts hc hb h ih =>
      cases h' with
      | done => exact Or.inr ⟨ts, rfl, .blank hc hb h⟩
      | blank _ _ h' => exact ih h'
      | token ht _ =>
          rw [Lexer.lex_drop_of_blank hc hb] at ht
          cases ht
  | @token i j n t ts ht h ih =>
      cases h' with
      | done => exact Or.inr ⟨t :: ts, rfl, .token ht h⟩
      | blank hc hb _ =>
          rw [Lexer.lex_drop_of_blank hc hb] at ht
          cases ht
      | @token _ _ _ _ us ht' h' =>
          obtain ⟨rfl, rfl⟩ : t = _ ∧ n = _ := by simpa [ht] using ht'
          rcases ih h' with ⟨vs, rfl, hvs⟩ | ⟨vs, rfl, hvs⟩
          · exact Or.inl ⟨vs, rfl, hvs⟩
          · exact Or.inr ⟨vs, rfl, hvs⟩

/-- Between two positions there is one list of tokens. -/
theorem unique (h : Reads L text i ts j) (h' : Reads L text i us j) : ts = us := by
  have hnil : ∀ {vs}, Reads L text j vs j → vs = [] := by
    intro vs hvs
    cases hvs with
    | done => rfl
    | blank hc hb hvs =>
        have := hvs.le
        omega
    | token ht hvs =>
        have := hvs.le
        have := L.pos ht
        omega
  rcases h.compare h' with ⟨vs, rfl, hvs⟩ | ⟨vs, rfl, hvs⟩
  · simp [hnil hvs]
  · simp [hnil hvs]

theorem le_length_of_blanks (h : Reads L text i [] j) (hi : i ≤ text.length) :
    j ≤ text.length := by
  generalize hts : ([] : List τ) = ts at h
  induction h with
  | done => exact hi
  | blank hc _ _ ih =>
      obtain ⟨hlt, -⟩ := List.getElem?_eq_some_iff.mp hc
      exact ih hlt hts
  | token => cases hts

/-- A reading ends inside the text when its last token does. -/
theorem end_le (h : Reads L text i (ts ++ [t]) j)
    (ht : ∀ s n, L.lex s = some (t, n) → n ≤ s.length) : j ≤ text.length := by
  obtain ⟨m, n, -, hlex, hrest⟩ := h.exists_token_after
  have hn := ht _ _ hlex
  have hm := Lexer.lt_length hlex
  rw [List.length_drop] at hn
  exact hrest.le_length_of_blanks (by omega)

/-- Readings end inside the text when no token is longer than what remains of it. -/
theorem le_length (h : Reads L text i ts j) (hi : i ≤ text.length)
    (hlex : ∀ s t n, L.lex s = some (t, n) → n ≤ s.length) : j ≤ text.length := by
  induction h with
  | done => exact hi
  | blank hc _ _ ih =>
      obtain ⟨hlt, -⟩ := List.getElem?_eq_some_iff.mp hc
      exact ih hlt
  | token ht _ ih =>
      have hn := hlex _ _ _ ht
      have := Lexer.lt_length ht
      rw [List.length_drop] at hn
      exact ih (by omega)

end Reads

/-! ### Reading by evaluation -/

/-- The tokens from a position to the end of a text; each round moves the position forward. -/
def Lexer.tokens (L : Lexer α τ) [DecidablePred L.blank] (text : List α) :
    Nat → Nat → Option (List τ)
  | 0, _ => none
  | fuel + 1, i =>
      match text[i]? with
      | none => if i = text.length then some [] else none
      | some c =>
          if L.blank c then L.tokens text fuel (i + 1)
          else
            match L.lex (text.drop i) with
            | none => none
            | some (t, n) => (L.tokens text fuel (i + n)).map (t :: ·)

theorem reads_of_tokens [DecidablePred L.blank] {fuel : Nat}
    (h : L.tokens text fuel i = some ts) : Reads L text i ts text.length := by
  induction fuel generalizing i ts with
  | zero => cases h
  | succ fuel ih =>
      rw [Lexer.tokens] at h
      split at h
      · split_ifs at h with hi
        obtain rfl : [] = ts := by simpa using h
        rw [hi]
        exact .done _
      · next c hc =>
          split_ifs at h with hb
          · exact .blank hc hb (ih h)
          · split at h
            · cases h
            · next t n ht =>
                obtain ⟨us, hus, rfl⟩ := Option.map_eq_some_iff.mp h
                exact .token ht (ih hus)

/-! ### Where reading stops -/

/-- Tokens that some sentence of a language starts with. -/
def LegalPrefix (Language : List τ → Prop) (ts : List τ) : Prop := ∃ us, Language (ts ++ us)

theorem LegalPrefix.of_append {Language : List τ → Prop} (h : LegalPrefix Language (ts ++ us)) :
    LegalPrefix Language ts := by
  obtain ⟨vs, hvs⟩ := h
  exact ⟨us ++ vs, by rwa [← List.append_assoc]⟩

/-- No sentence goes on behind another one. -/
def PrefixFree (Language : List τ → Prop) : Prop :=
  ∀ ts us, Language ts → Language (ts ++ us) → us = []

/-- Reading from the start, as long as the tokens are a legal prefix, gets to a position and
not further: the text ends there, or what comes next is neither a blank nor a token that
may follow. -/
def StopsAt (L : Lexer α τ) (Language : List τ → Prop) (text : List α) (k : Nat) : Prop :=
  ∃ ts, Reads L text 0 ts k ∧ LegalPrefix Language ts ∧
    (∀ c, text[k]? = some c → ¬ L.blank c) ∧
    ∀ t n, L.lex (text.drop k) = some (t, n) → ¬ LegalPrefix Language (ts ++ [t])

/-- Reading stops at one position only. -/
theorem StopsAt.unique {Language : List τ → Prop} (h : StopsAt L Language text j)
    (h' : StopsAt L Language text k) : j = k := by
  -- a reading that stopped cannot be continued by blanks or by legal tokens
  have hstop : ∀ {i m ts vs}, (∀ c, text[i]? = some c → ¬ L.blank c) →
      (∀ t n, L.lex (text.drop i) = some (t, n) → ¬ LegalPrefix Language (ts ++ [t])) →
      Reads L text i vs m → LegalPrefix Language (ts ++ vs) → i = m := by
    intro i m ts vs hblank htoken hread hlegal
    cases hread with
    | done => rfl
    | blank hc hb _ => exact absurd hb (hblank _ hc)
    | @token _ _ _ t vs ht _ =>
        have hlegal' : LegalPrefix Language (ts ++ [t] ++ vs) := by simpa using hlegal
        exact absurd hlegal'.of_append (htoken t _ ht)
  obtain ⟨ts, hr, hl, hb, ht⟩ := h
  obtain ⟨us, hr', hl', hb', ht'⟩ := h'
  rcases hr.compare hr' with ⟨vs, rfl, hvs⟩ | ⟨vs, rfl, hvs⟩
  · exact hstop hb ht hvs hl'
  · exact (hstop hb' ht' hvs hl).symm

end RedisS2Geo.Foundation
