import Mathlib.Data.List.Basic
import RedisS2Geo.Foundation.Scanning

/-!
# Reading pieces of texts

A piece reads alike in several texts when the lexer gives the same tokens at its
positions. Pieces that read alike in every text around them can be put together.
-/

namespace RedisS2Geo.Foundation

variable {α τ : Type*} {L : Lexer α τ} {text text' : List α} {i j m : Nat} {ts us : List τ}

/-- The blanks and tokens of one text at some positions from a start on are also in another
text from a start of its own. -/
structure Agree (L : Lexer α τ) (text : List α) (i : Nat) (text' : List α) (j m : Nat) : Prop where
  get : ∀ k c, k < m → text[i + k]? = some c → text'[j + k]? = some c
  lex : ∀ k t n, k < m → L.lex (text.drop (i + k)) = some (t, n) →
    L.lex (text'.drop (j + k)) = some (t, n)

theorem Agree.shift {n : Nat} (h : Agree L text i text' j (n + m)) :
    Agree L text (i + n) text' (j + n) m where
  get k c hk hc := by
    rw [Nat.add_assoc] at hc ⊢
    exact h.get (n + k) c (by omega) hc
  lex k t l hk ht := by
    rw [Nat.add_assoc] at ht ⊢
    exact h.lex (n + k) t l (by omega) ht

/-- A reading carries over. -/
theorem Reads.transfer (h : Reads L text i ts (i + m)) (hagree : Agree L text i text' j m) :
    Reads L text' j ts (j + m) := by
  generalize hend : i + m = l at h
  induction h generalizing j m with
  | done i =>
      obtain rfl : m = 0 := by omega
      exact .done j
  | @blank i l c ts hc hb h ih =>
      have hle := h.le
      obtain ⟨m, rfl⟩ := Nat.exists_eq_add_of_le (show 1 ≤ m by omega)
      have hrest : Reads L text' (j + 1) ts (j + 1 + m) := ih hagree.shift (by omega)
      rw [← Nat.add_assoc]
      exact .blank (hagree.get 0 c (by omega) hc) hb hrest
  | @token i l n t ts ht h ih =>
      have hle := h.le
      have hpos := L.pos ht
      obtain ⟨m, rfl⟩ := Nat.exists_eq_add_of_le (show n ≤ m by omega)
      have hrest : Reads L text' (j + n) ts (j + n + m) := ih hagree.shift (by omega)
      rw [← Nat.add_assoc]
      exact .token (hagree.lex 0 t n (by omega) ht) hrest

/-- The bytes that a reading without tokens goes over are blanks. -/
theorem Reads.blanks (h : Reads L text i [] j) {k : Nat} (hi : i ≤ k) (hj : k < j) :
    ∃ c, text[k]? = some c ∧ L.blank c := by
  generalize hts : ([] : List τ) = ts at h
  induction h with
  | done => omega
  | @blank i j c ts hc hb _ ih =>
      by_cases hk : i = k
      · exact ⟨c, hk ▸ hc, hb⟩
      · exact ih (by omega) hj hts
  | token => cases hts

/-- The piece of a text between two of its letters. -/
theorem exists_between {a b : α} (h : i < j) (ha : text[i]? = some a) (hb : text[j]? = some b) :
    ∃ v, text = text.take i ++ (a :: v ++ [b]) ++ text.drop (j + 1) ∧ i + 1 + v.length = j := by
  obtain ⟨hi, rfl⟩ := List.getElem?_eq_some_iff.mp ha
  obtain ⟨hj, rfl⟩ := List.getElem?_eq_some_iff.mp hb
  refine ⟨(text.drop (i + 1)).take (j - (i + 1)), ?_, ?_⟩
  · have hrest : (text.drop (i + 1)).take (j - (i + 1)) ++ text[j] :: text.drop (j + 1) =
        text.drop (i + 1) := by
      rw [← List.drop_eq_getElem_cons hj]
      conv_rhs => rw [← List.take_append_drop (j - (i + 1)) (text.drop (i + 1)), List.drop_drop]
      rw [Nat.add_sub_cancel' h]
    calc text = text.take i ++ text.drop i := (List.take_append_drop i text).symm
      _ = text.take i ++ text[i] :: text.drop (i + 1) := by rw [List.drop_eq_getElem_cons hi]
      _ = text.take i ++ text[i] :: ((text.drop (i + 1)).take (j - (i + 1)) ++
            text[j] :: text.drop (j + 1)) := by rw [hrest]
      _ = _ := by simp
  · rw [List.length_take, List.length_drop]
    omega

/-! ### Pieces in any context -/

/-- In every admissible text around it, a piece is read as these tokens. -/
def ReadsIn (L : Lexer α τ) (Admissible : List α → Prop) (piece : List α) (ts : List τ) : Prop :=
  ∀ pre post, Admissible (pre ++ piece ++ post) →
    Reads L (pre ++ piece ++ post) pre.length ts (pre.length + piece.length)

namespace ReadsIn
variable {Admissible : List α → Prop} {u v : List α} {t : τ} {c : α}

theorem nil : ReadsIn L Admissible [] [] := fun _ _ _ => .done _

theorem append (hu : ReadsIn L Admissible u ts) (hv : ReadsIn L Admissible v us) :
    ReadsIn L Admissible (u ++ v) (ts ++ us) := by
  intro pre post hadm
  have hfirst := hu pre (v ++ post) (by simpa using hadm)
  have hsecond := hv (pre ++ u) post (by simpa using hadm)
  simp only [List.append_assoc, List.length_append] at hfirst hsecond ⊢
  rw [← Nat.add_assoc]
  exact hfirst.append hsecond

theorem blank (hb : L.blank c) : ReadsIn L Admissible [c] [] := by
  intro pre post _
  exact .blank (by simp) hb (.done _)

/-- A token of one byte that does not depend on what follows. -/
theorem single (ht : ∀ post, L.lex (c :: post) = some (t, 1)) :
    ReadsIn L Admissible [c] [t] := by
  intro pre post _
  exact .single (by simpa using ht post)

theorem replicate_blank (hb : L.blank c) (n : Nat) :
    ReadsIn L Admissible (List.replicate n c) [] := by
  induction n with
  | zero => exact nil
  | succ n ih => exact (blank hb).append ih

/-- Items with a separator between them. -/
theorem intercalate {ι : Type*} {sep : List α} {sepTokens : List τ} {piece : ι → List α}
    {tokens : ι → List τ} (hsep : ReadsIn L Admissible sep sepTokens) {items : List ι}
    (h : ∀ item ∈ items, ReadsIn L Admissible (piece item) (tokens item)) :
    ReadsIn L Admissible (List.intercalate sep (items.map piece))
      (List.intercalate sepTokens (items.map tokens)) := by
  induction items with
  | nil => exact nil
  | cons first rest ih =>
      have hfirst := h first (by simp)
      have hrest := ih fun item hitem => h item (List.mem_cons_of_mem _ hitem)
      cases rest with
      | nil => simpa [List.intercalate] using hfirst
      | cons second rest =>
          simp only [List.map_cons, List.intercalate_cons_cons] at hrest ⊢
          exact (hfirst.append hsep).append hrest

/-- A piece that is the whole text. -/
theorem spells (h : ReadsIn L Admissible u ts) (hadm : Admissible u) : Spells L u ts := by
  simpa [Spells] using h [] [] (by simpa using hadm)

/-- When a piece is a sentence of a prefix-free language, a text that starts with it is a
sentence only if blanks follow, and it is the same sentence. -/
theorem blanks_of_spells {Language : List τ → Prop} (hfree : PrefixFree Language)
    (hu : ReadsIn L Admissible u ts) (hadm : Admissible (u ++ v)) (hts : Language ts)
    (hspells : Spells L (u ++ v) us) (hus : Language us) :
    us = ts ∧ ∀ c ∈ v, L.blank c := by
  have hread : Reads L (u ++ v) 0 ts u.length := by
    simpa using hu [] v (by simpa using hadm)
  have hblanks : ∀ {n}, Reads L (u ++ v) u.length [] n → n = (u ++ v).length →
      ∀ c ∈ v, L.blank c := by
    rintro n h rfl c hc
    obtain ⟨k, hk, rfl⟩ := List.mem_iff_getElem.mp hc
    have hlt : u.length + k < (u ++ v).length := by
      rw [List.length_append]
      omega
    obtain ⟨b, hb, hblank⟩ := h.blanks (Nat.le_add_right _ k) hlt
    rw [List.getElem?_append_right (Nat.le_add_right _ k), Nat.add_sub_cancel_left,
      List.getElem?_eq_getElem hk] at hb
    rwa [Option.some.inj hb]
  rcases hread.compare hspells with ⟨vs, rfl, hrest⟩ | ⟨vs, rfl, hrest⟩
  · obtain rfl := hfree ts vs hts hus
    exact ⟨List.append_nil ts, hblanks hrest rfl⟩
  · -- the text is over with the piece
    obtain rfl := hfree us vs hus hts
    have hv : v = [] := by
      have hle := hrest.le
      rw [List.length_append] at hle
      exact List.length_eq_zero_iff.mp (by omega)
    subst hv
    exact ⟨(List.append_nil us).symm, by simp⟩

end ReadsIn

end RedisS2Geo.Foundation
