import RedisS2Geo.Foundation.TokenMachine
import RedisS2Geo.Text.Tokens

/-!
# The parsers as scans

At every position that holds no space the parsers test single bytes or call `strtod`.
These tests tell the token there, and a loop whose rounds act on them scans by a
token machine.
-/

namespace RedisS2Geo.Text
open Foundation Source

section Positions
variable (env : Environment)

/-- What the parsers test at a position tells the token there. -/
structure Tests (body : Bytes) (i : Nat) (read : Option (Token env.Double × Nat)) : Prop where
  space : charAt body i ≠ chr ' '
  opening : charAt body i = chr '[' ↔ read = some (.opening, 1)
  comma : charAt body i = chr ',' ↔ read = some (.comma, 1)
  closing : charAt body i = chr ']' ↔ read = some (.closing, 1)
  number : readNumber env body i =
    match read with
    | some (.number value, n) => some (value, i + n)
    | _ => none

theorem readNumber_eq_lexNumber (body : Bytes) (i : Nat) :
    readNumber env body i =
      (lexNumber env (body.drop i)).map fun read => (read.1, i + read.2) := by
  by_cases hi : i < body.length
  · have hchar : charAt body i = body[i] := by simp [charAt, hi]
    rw [readNumber, hchar, List.drop_eq_getElem_cons hi, lexNumber]
    split
    · simp only
      split <;> rfl
    · rfl
  · have hchar : charAt body i = 0 := by simp [charAt, Nat.not_lt.mp hi]
    rw [readNumber, hchar, List.drop_eq_nil_of_le (Nat.not_lt.mp hi)]
    rfl

/-- A number starts with none of the delimiters. -/
theorem delimiter_of_readNumber {body : Bytes} {i : Nat}
    (h : charAt body i = chr '[' ∨ charAt body i = chr ',' ∨ charAt body i = chr ']') :
    readNumber env body i = none := by
  have hstart : startsNumber (charAt body i) = false := by
    rcases h with h | h | h <;> rw [h] <;> rfl
  simp [readNumber, hstart]

/-- The token at a position by its first byte. -/
theorem lexToken_drop (body : Bytes) (i : Nat) :
    lexToken env (body.drop i) =
      if charAt body i = chr '[' then some (.opening, 1)
      else if charAt body i = chr ',' then some (.comma, 1)
      else if charAt body i = chr ']' then some (.closing, 1)
      else (lexNumber env (body.drop i)).map fun read => (.number read.1, read.2) := by
  by_cases hi : i < body.length
  · have hchar : charAt body i = body[i] := by simp [charAt, hi]
    rw [hchar, List.drop_eq_getElem_cons hi, lexToken]
  · have hchar : charAt body i = 0 := by simp [charAt, Nat.not_lt.mp hi]
    rw [hchar, List.drop_eq_nil_of_le (Nat.not_lt.mp hi)]
    rfl

theorem tests_of_ne_space {body : Bytes} {i : Nat} (h : charAt body i ≠ chr ' ') :
    Tests env body i (lexToken env (body.drop i)) := by
  have hcomma : chr ',' ≠ chr '[' := by decide
  have hclosing : chr ']' ≠ chr '[' ∧ chr ']' ≠ chr ',' := by decide
  rw [lexToken_drop]
  split_ifs with hc hc' hc''
  · exact ⟨h, by simp [hc], by simp [hc, hcomma.symm], by simp [hc, hclosing.1.symm],
      delimiter_of_readNumber env (Or.inl hc)⟩
  · exact ⟨h, by simp [hc', hcomma], by simp [hc'], by simp [hc', hclosing.2.symm],
      delimiter_of_readNumber env (Or.inr (Or.inl hc'))⟩
  · exact ⟨h, by simp [hc'', hclosing.1], by simp [hc'', hclosing.2], by simp [hc''],
      delimiter_of_readNumber env (Or.inr (Or.inr hc''))⟩
  · refine ⟨h, by simp [hc], by simp [hc'], by simp [hc''], ?_⟩
    rw [readNumber_eq_lexNumber]
    cases lexNumber env (body.drop i) <;> rfl

theorem charAt_eq_iff {body : Bytes} {i : Nat} {c : UInt8} (hc : c ≠ 0) :
    charAt body i = c ↔ body[i]? = some c := by
  cases h : body[i]? with
  | none => simp [charAt, h, hc.symm]
  | some b => simp [charAt, h]

theorem lexToken_opening_iff {body : Bytes} {i n : Nat} :
    lexToken env (body.drop i) = some (.opening, n) ↔ body[i]? = some (chr '[') ∧ n = 1 := by
  rw [← charAt_eq_iff (by decide), lexToken_drop]
  split_ifs with hopening hcomma hclosing
  · simp [hopening, eq_comm]
  · simp [hopening]
  · simp [hopening]
  · simp [hopening]

theorem lexToken_closing_iff {body : Bytes} {i n : Nat} :
    lexToken env (body.drop i) = some (.closing, n) ↔ body[i]? = some (chr ']') ∧ n = 1 := by
  have hne : chr '[' ≠ chr ']' ∧ chr ',' ≠ chr ']' := by decide
  rw [← charAt_eq_iff (by decide), lexToken_drop]
  split_ifs with hopening hcomma hclosing
  · simp [hopening, hne.1]
  · simp [hcomma, hne.2]
  · simp [hclosing, eq_comm]
  · simp [hclosing]

theorem errorAt_neg (i : Nat) : errorAt i < 0 := by
  simp only [errorAt]
  omega

end Positions

/-! ### Scanning a body -/

section Loops
variable {env : Environment} {body : Bytes} {σ ρ : Type}
variable {step : σ → Token env.Double → Option σ} {limit : σ → Option Int}
variable {round : ρ → Except Int ρ} {index : ρ → Nat} {state : σ → Nat → ρ}

theorem more_iff (hbody : NulFree body) {i : Nat} :
    (charAt body i != 0) = true ↔ i < body.length := by
  constructor
  · intro h
    exact lt_length_of_charAt body i (by simpa using h)
  · intro hi
    have hmem : body[i] ∈ body := List.getElem_mem hi
    have hne : body[i] ≠ 0 := fun h0 => hbody (h0 ▸ hmem)
    simpa [charAt, hi] using hne

/-- A loop over the body scans by a machine when each round goes over a space or gives the
machine the token at its position. -/
theorem scansBy_of_round (hbody : NulFree body) (hindex : ∀ q i, index (state q i) = i)
    (hspace : ∀ q i, charAt body i = chr ' ' → round (state q i) = .ok (state q (i + 1)))
    (htoken : ∀ q i, charAt body i ≠ chr ' ' →
      round (state q i) = respond step limit errorAt state q i (lexToken env (body.drop i))) :
    ScansBy (lexer env) step limit errorAt body (fun s => charAt body (index s) != 0) round
      state where
  more_iff q i := by
    rw [hindex]
    exact more_iff hbody
  blank {q i c} hc hb := by
    obtain rfl : c = chr ' ' := hb
    exact hspace q i ((charAt_eq_iff (by decide)).mpr hc)
  token {q i c} hc hb := by
    apply htoken q i
    intro hspace
    rw [charAt_eq_iff (by decide), hc] at hspace
    exact hb (Option.some.inj hspace)

variable (H : ScansBy (lexer env) step limit errorAt body
  (fun s => charAt body (index s) != 0) round state)
variable (hround : ∀ s t, round s = .ok t → index s < index t)
include H hround

theorem loop_eq_ok_iff {q : σ} {r : ρ} :
    boundedLoop (fun s => charAt body (index s) != 0) round body.length (state q 0) = .ok r ↔
      ∃ ts j q', r = state q' j ∧ Reads (lexer env) body 0 ts j ∧
        runTokens (capped limit step) q ts = some q' ∧ body.length ≤ j :=
  (scan_eq_ok_iff hround).trans H.exists_end_iff

theorem loop_eq_error_iff {q : σ} {e : Int} :
    boundedLoop (fun s => charAt body (index s) != 0) round body.length (state q 0) =
        .error e ↔
      ∃ ts j q', Reads (lexer env) body 0 ts j ∧ runTokens (capped limit step) q ts = some q' ∧
        Halts (lexer env) step limit errorAt body q' j e :=
  (scan_eq_error_iff hround).trans H.exists_error_iff

end Loops

end RedisS2Geo.Text
