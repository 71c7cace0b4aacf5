import RedisS2Geo.Foundation.Contexts
import RedisS2Geo.Text.PointScan
import RedisS2Geo.Text.PolygonScan

/-!
# Points inside polygons

When a numeral is not affected by what follows a space, a comma or a closing bracket, the
text of a point reads alike on its own and in the middle of a polygon.

## Implementation notes

The parsers call `strtod` only at a byte that can start a number. Elsewhere it is left
open, since `strtod` skips spaces and then reads what stands behind them.
-/

namespace RedisS2Geo.Text
open Foundation Source
variable {env : Environment}

/-- What `strtod` reads where a number can start does not depend on the text behind a
delimiter. -/
def StrtodStops (env : Environment) : Prop :=
  ∀ x s c t, startsNumber x = true → c ∈ ascii " ,]" → NulFree (x :: s ++ c :: t) →
    env.strtod (x :: s ++ c :: t) = env.strtod (x :: s)

/-- A test that fails on the three delimiters. -/
theorem test_delimiter {p : UInt8 → Bool} (h : (ascii " ,]").all (fun c => !p c) = true)
    {c : UInt8} (hc : c ∈ ascii " ,]") : p c = false := by
  simpa using List.all_eq_true.mp h c hc

theorem takeWhile_stops {p : UInt8 → Bool} {c : UInt8} (hc : p c = false) (s t : Bytes) :
    (s ++ c :: t).takeWhile p = s.takeWhile p := by
  induction s with
  | nil => simp [hc]
  | cons x s ih =>
      rw [List.cons_append, List.takeWhile_cons, List.takeWhile_cons, ih]

theorem strtodStops_sample : StrtodStops sampleEnvironment := by
  rintro x s c t - hc -
  have hnumeral : isNumeralByte c = false := test_delimiter (by decide) hc
  simp only [sampleEnvironment, numeral, takeWhile_stops hnumeral]

theorem lexNumber_stops (h : StrtodStops env) {s t : Bytes} {c : UInt8} (hc : c ∈ ascii " ,]")
    (hnul : NulFree (s ++ c :: t)) : lexNumber env (s ++ c :: t) = lexNumber env s := by
  cases s with
  | nil =>
      have hstart : startsNumber c = false := test_delimiter (by decide) hc
      simp [lexNumber, hstart]
  | cons x s =>
      have hs : NulFree (x :: s) := fun hx => hnul (List.mem_append_left _ hx)
      by_cases hx : startsNumber x = true
      · have hstop := h x s c t hx hc hnul
        rw [List.cons_append] at hstop hnul ⊢
        simp only [lexNumber, cString_eq_self hnul, cString_eq_self hs, hstop]
      · simp [lexNumber, hx]

/-- The token at the start of a text does not depend on what follows a delimiter. -/
theorem lexToken_stops (h : StrtodStops env) {s t t' : Bytes} {c : UInt8}
    (hc : c ∈ ascii " ,]") (hnul : NulFree (s ++ c :: t)) (hnul' : NulFree (s ++ c :: t')) :
    lexToken env (s ++ c :: t) = lexToken env (s ++ c :: t') := by
  have hnumber := (lexNumber_stops h hc hnul).trans (lexNumber_stops h hc hnul').symm
  cases s with
  | nil =>
      rw [List.nil_append, List.nil_append] at hnumber ⊢
      simp only [lexToken, hnumber]
  | cons x s =>
      rw [List.cons_append, List.cons_append] at hnumber ⊢
      simp only [lexToken, hnumber]

/-- Up to a closing bracket in a piece, its tokens are those of the text around it. -/
theorem lexToken_inside (h : StrtodStops env) {pre u post : Bytes} {k : Nat}
    (hnul : NulFree (pre ++ u ++ post)) (hk : chr ']' ∈ u.drop k) :
    lexToken env ((pre ++ u ++ post).drop (pre.length + k)) = lexToken env (u.drop k) := by
  obtain ⟨s, t, hu⟩ := List.append_of_mem hk
  have hdrop : (pre ++ u ++ post).drop (pre.length + k) = s ++ chr ']' :: (t ++ post) := by
    have hlt : k ≤ u.length := by
      by_contra hlt
      rw [List.drop_eq_nil_of_le (by omega)] at hk
      cases hk
    rw [List.append_assoc, List.drop_append, List.drop_eq_nil_of_le (by omega),
      Nat.add_sub_cancel_left, List.drop_append_of_le_length hlt, hu]
    simp
  have hmem : ∀ b ∈ s ++ chr ']' :: (t ++ post), b ∈ pre ++ u ++ post := by
    intro b hb
    rw [← hdrop] at hb
    exact List.mem_of_mem_drop hb
  have hnul₁ : NulFree (s ++ chr ']' :: (t ++ post)) := fun hb => hnul (hmem _ hb)
  have hnul₂ : NulFree (s ++ chr ']' :: t) := by
    intro hb
    apply hnul₁
    rw [← List.cons_append, ← List.append_assoc]
    exact List.mem_append_left _ hb
  rw [hdrop, hu]
  exact lexToken_stops h (by decide) hnul₁ hnul₂

/-- Behind the last token of a text there are only spaces. -/
theorem exists_closing {u : Bytes} {ts : List (Token env.Double)}
    (h : Spells (lexer env) u (ts ++ [.closing])) :
    ∃ m, u[m]? = some (chr ']') ∧ ∀ k, m < k → k < u.length → u[k]? = some (chr ' ') := by
  obtain ⟨m, n, -, hlex, hrest⟩ := Reads.exists_token_after h
  obtain ⟨hclosing, rfl⟩ := (lexToken_closing_iff env).mp hlex
  refine ⟨m, hclosing, ?_⟩
  intro k hm hk
  obtain ⟨c, hc, hblank⟩ := hrest.blanks (Nat.succ_le_of_lt hm) hk
  rw [hc, show c = chr ' ' from hblank]

/-- A text that ends with a closing bracket and spaces reads alike in every text around it. -/
theorem readsIn_of_spells (h : StrtodStops env) {u : Bytes} {ts : List (Token env.Double)}
    (hu : Spells (lexer env) u (ts ++ [.closing])) :
    ReadsIn (lexer env) NulFree u (ts ++ [.closing]) := by
  intro pre post hnul
  obtain ⟨m, hclosing, hblank⟩ := exists_closing hu
  have hread : Reads (lexer env) u 0 (ts ++ [.closing]) (0 + u.length) := by
    rw [Nat.zero_add]
    exact hu
  apply hread.transfer
  constructor
  · intro k c hk hc
    rw [Nat.zero_add] at hc
    rw [List.append_assoc, List.getElem?_append_right (by omega), Nat.add_sub_cancel_left,
      List.getElem?_append_left hk]
    exact hc
  · intro k t n hk ht
    rw [Nat.zero_add] at ht
    have hle : k ≤ m := by
      -- otherwise the position is among the spaces at the end
      by_contra hlt
      rw [Lexer.lex_drop_of_blank (hblank k (by omega) hk) rfl] at ht
      cases ht
    have hmem : chr ']' ∈ u.drop k := by
      apply List.mem_of_getElem? (i := m - k)
      rw [List.getElem?_drop, Nat.add_sub_cancel' hle]
      exact hclosing
    exact (lexToken_inside h hnul hmem).trans ht

/-- The text from an opening to a closing bracket, read on its own. -/
theorem spells_of_inside (h : StrtodStops env) {pre v post : Bytes}
    {ts : List (Token env.Double)} (hnul : NulFree (pre ++ (v ++ [chr ']']) ++ post))
    (hread : Reads (lexer env) (pre ++ (v ++ [chr ']']) ++ post) pre.length ts
      (pre.length + (v ++ [chr ']']).length)) :
    Spells (lexer env) (v ++ [chr ']']) ts := by
  have hspells : Reads (lexer env) (v ++ [chr ']']) 0 ts (0 + (v ++ [chr ']']).length) := by
    apply hread.transfer
    constructor
    · intro k c hk hc
      rw [List.append_assoc, List.getElem?_append_right (by omega), Nat.add_sub_cancel_left,
        List.getElem?_append_left hk] at hc
      rw [Nat.zero_add]
      exact hc
    · intro k t n hk ht
      rw [List.length_append, List.length_singleton] at hk
      have hmem : chr ']' ∈ (v ++ [chr ']']).drop k := by
        rw [List.drop_append_of_le_length (by omega)]
        simp
      rw [Nat.zero_add]
      exact (lexToken_inside h hnul hmem).symm.trans ht
  rwa [Nat.zero_add] at hspells

/-! ### Polygons made of the texts of points -/

def spaces (n : Nat) : Bytes := List.replicate n (chr ' ')

/-- The text of a point with spaces before and behind it. -/
structure PaddedText where
  before : Nat
  text : Bytes
  behind : Nat

def PaddedText.bytes (t : PaddedText) : Bytes := spaces t.before ++ t.text ++ spaces t.behind

/-- Texts with commas between them, in two pairs of brackets with spaces around each. -/
def polygonOf (a b c d : Nat) (texts : List PaddedText) : Bytes :=
  spaces a ++ [chr '['] ++ (spaces b ++ [chr '[']) ++
    List.intercalate [chr ','] (texts.map PaddedText.bytes) ++
      ([chr ']'] ++ spaces c) ++ ([chr ']'] ++ spaces d)

theorem nulFree_spaces (n : Nat) : NulFree (spaces n) := by
  intro h
  exact absurd (List.eq_of_mem_replicate h) (by decide)

theorem nulFree_polygonOf {a b c d : Nat} {texts : List PaddedText}
    (h : ∀ t ∈ texts, NulFree t.text) : NulFree (polygonOf a b c d texts) := by
  have htexts : NulFree (List.intercalate [chr ','] (texts.map PaddedText.bytes)) := by
    apply nulFree_intercalate (by decide)
    intro item hitem
    obtain ⟨t, ht, rfl⟩ := List.mem_map.mp hitem
    simp [PaddedText.bytes, nulFree_spaces, h t ht]
  have hopening : NulFree [chr '['] := by decide
  have hclosing : NulFree [chr ']'] := by decide
  simp only [polygonOf, nulFree_append, nulFree_spaces, htexts, hopening, hclosing, and_self]

theorem readsIn_spaces (n : Nat) : ReadsIn (lexer env) NulFree (spaces n) [] :=
  ReadsIn.replicate_blank rfl n

theorem readsIn_padded (h : StrtodStops env) {t : PaddedText} {point : env.Double × env.Double}
    (ht : PointText env t.text point) :
    ReadsIn (lexer env) NulFree t.bytes (pointTokens point) := by
  have hpoint : ReadsIn (lexer env) NulFree t.text (pointTokens point) :=
    readsIn_of_spells h
      (show Spells (lexer env) t.text
        ([.opening, .number point.1, .comma, .number point.2] ++ [.closing]) from ht)
  simpa [PaddedText.bytes] using
    ((readsIn_spaces t.before).append hpoint).append (readsIn_spaces t.behind)

/-- A polygon made of texts of points holds these points. -/
theorem spells_polygonOf (h : StrtodStops env) {a b c d : Nat}
    {items : List (PaddedText × (env.Double × env.Double))}
    (hnul : ∀ item ∈ items, NulFree item.1.text)
    (hitems : ∀ item ∈ items, PointText env item.1.text item.2) :
    Spells (lexer env) (polygonOf a b c d (items.map Prod.fst))
      (polygonTokens [items.map Prod.snd]) := by
  have hopening : ReadsIn (lexer env) NulFree [chr '['] [.opening] :=
    ReadsIn.single fun _ => rfl
  have hclosing : ReadsIn (lexer env) NulFree [chr ']'] [.closing] :=
    ReadsIn.single fun _ => rfl
  have hcomma : ReadsIn (lexer env) NulFree [chr ','] [.comma] :=
    ReadsIn.single fun _ => rfl
  have hpoints : ReadsIn (lexer env) NulFree
      (List.intercalate [chr ','] (items.map fun item => item.1.bytes))
      (List.intercalate [.comma] (items.map fun item => pointTokens item.2)) := by
    apply ReadsIn.intercalate hcomma
    intro item hitem
    exact readsIn_padded h (hitems item hitem)
  have hbody := (((((readsIn_spaces a).append hopening).append
    ((readsIn_spaces b).append hopening)).append hpoints).append
      (hclosing.append (readsIn_spaces c))).append (hclosing.append (readsIn_spaces d))
  have htexts : NulFree (polygonOf a b c d (items.map Prod.fst)) := by
    apply nulFree_polygonOf
    intro t ht
    obtain ⟨item, hitem, rfl⟩ := List.mem_map.mp ht
    exact hnul item hitem
  simp only [polygonOf, List.map_map, Function.comp_def] at htexts ⊢
  simpa [polygonTokens, ringTokens, separated, Function.comp_def] using hbody.spells htexts

end RedisS2Geo.Text
