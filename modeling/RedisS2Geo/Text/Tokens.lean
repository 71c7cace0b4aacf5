import Mathlib.Data.List.Basic
import RedisS2Geo.Foundation.Scanning
import RedisS2Geo.Source.Parser

/-!
# The grammar of points and polygons

A point is written as `[longitude,latitude]`, a ring as the bracketed list of its
points and a polygon as the bracketed list of its rings. Spaces may stand around
each token. A number is what `strtod` reads at its place, provided that it starts
with a digit, a sign or a dot.
-/

namespace RedisS2Geo.Text
open Foundation Source

/-- The tokens of a body; a number is told by its value. -/
inductive Token (V : Type) where
  | opening
  | comma
  | closing
  | number (value : V)

section Lexing
variable (env : Environment)

/-- The number at the start of a text, with its length. -/
def lexNumber : Bytes → Option (env.Double × Nat)
  | [] => none
  | c :: s =>
      if startsNumber c then
        let read := env.strtod (cString (c :: s))
        if 0 < read.2 then some read else none
      else none

/-- The token at the start of a text, with its length. -/
def lexToken : Bytes → Option (Token env.Double × Nat)
  | [] => none
  | c :: s =>
      if c = chr '[' then some (.opening, 1)
      else if c = chr ',' then some (.comma, 1)
      else if c = chr ']' then some (.closing, 1)
      else (lexNumber env (c :: s)).map fun read => (.number read.1, read.2)

theorem lexNumber_pos {env : Environment} {s : Bytes} {v : env.Double} {n : Nat}
    (h : lexNumber env s = some (v, n)) : 0 < n := by
  cases s with
  | nil => cases h
  | cons c s =>
      simp only [lexNumber, Option.ite_none_right_eq_some, Option.some.injEq] at h
      obtain ⟨-, hn, he⟩ := h
      rwa [he] at hn

/-- Delimiters are single bytes. -/
theorem lexToken_length {env : Environment} {s : Bytes} {t : Token env.Double} {n : Nat}
    (h : lexToken env s = some (t, n)) : n = 1 ∨ ∃ value, t = .number value := by
  cases s with
  | nil => cases h
  | cons c s =>
      simp only [lexToken] at h
      split_ifs at h
      · cases h
        exact Or.inl rfl
      · cases h
        exact Or.inl rfl
      · cases h
        exact Or.inl rfl
      · obtain ⟨read, -, he⟩ := Option.map_eq_some_iff.mp h
        cases he
        exact Or.inr ⟨read.1, rfl⟩

theorem lexToken_pos {env : Environment} {s : Bytes} {t : Token env.Double} {n : Nat}
    (h : lexToken env s = some (t, n)) : 0 < n := by
  rcases lexToken_length h with rfl | ⟨value, rfl⟩
  · exact Nat.one_pos
  · cases s with
    | nil => cases h
    | cons c s =>
        simp only [lexToken] at h
        split_ifs at h <;> try cases h
        obtain ⟨⟨v, m⟩, hread, he⟩ := Option.map_eq_some_iff.mp h
        cases he
        exact lexNumber_pos hread

/-- Spaces are blanks. -/
def lexer : Lexer UInt8 (Token env.Double) where
  blank c := c = chr ' '
  lex := lexToken env
  lex_nil := rfl
  lex_blank := by
    rintro c s rfl
    rfl
  pos := lexToken_pos

instance : DecidablePred (lexer env).blank := fun c => inferInstanceAs (Decidable (c = chr ' '))

variable {env} in
/-- A reading that ends with a closing bracket ends inside the body. -/
theorem reads_closing_le {body : Bytes} {i j : Nat} {ts : List (Token env.Double)}
    (h : Reads (lexer env) body i (ts ++ [.closing]) j) : j ≤ body.length := by
  apply h.end_le
  intro s n hlex
  obtain rfl : n = 1 := by simpa using lexToken_length hlex
  cases s with
  | nil => cases hlex
  | cons => simp

/-- The end that `strtod` reports lies inside its argument. -/
def StrtodEndsInside : Prop := ∀ s, (env.strtod s).2 ≤ s.length

theorem strtodEndsInside_sample : StrtodEndsInside sampleEnvironment :=
  fun _ => (List.takeWhile_sublist _).length_le

variable {env} in
/-- A token is part of the C string at its place. -/
theorem lexToken_le (h : StrtodEndsInside env) {s : Bytes} {t : Token env.Double} {n : Nat}
    (ht : lexToken env s = some (t, n)) : n ≤ (cString s).length := by
  cases s with
  | nil => cases ht
  | cons c s =>
      simp only [lexToken] at ht
      have hdelimiter : ∀ {d : UInt8}, d ≠ 0 → c = d → 1 ≤ (cString (c :: s)).length := by
        rintro d hd rfl
        simp [cString, hd]
      split_ifs at ht with hopening hcomma hclosing
      · cases ht
        exact hdelimiter (by decide) hopening
      · cases ht
        exact hdelimiter (by decide) hcomma
      · cases ht
        exact hdelimiter (by decide) hclosing
      · obtain ⟨⟨v, m⟩, hread, he⟩ := Option.map_eq_some_iff.mp ht
        cases he
        simp only [lexNumber, Option.ite_none_right_eq_some, Option.some.injEq] at hread
        obtain ⟨-, -, he⟩ := hread
        have hend := h (cString (c :: s))
        rwa [he] at hend

variable {env} in
/-- Whatever is read is without zero bytes. -/
theorem reads_ne_zero (h : StrtodEndsInside env) {body : Bytes} {i j k : Nat}
    {ts : List (Token env.Double)} (hread : Reads (lexer env) body i ts j) (hi : i ≤ k)
    (hj : k < j) : body[k]? ≠ some 0 := by
  induction hread with
  | done => omega
  | @blank i j c ts hc hb _ ih =>
      by_cases hk : i = k
      · subst hk
        rw [hc, show c = chr ' ' from hb]
        decide
      · exact ih (by omega) hj
  | @token i j n t ts ht _ ih =>
      by_cases hk : i + n ≤ k
      · exact ih hk hj
      · have hlt : k - i < (cString (body.drop i)).length :=
          lt_of_lt_of_le (by omega) (lexToken_le h ht)
        have hne := ne_zero_of_lt_cString hlt
        rwa [List.getElem?_drop, Nat.add_sub_cancel' hi] at hne

variable {env} in
theorem nulFree_of_spells (h : StrtodEndsInside env) {body : Bytes} {ts : List (Token env.Double)}
    (hspells : Spells (lexer env) body ts) : NulFree body := by
  intro hmem
  obtain ⟨k, hk, hzero⟩ := List.mem_iff_getElem.mp hmem
  apply reads_ne_zero h hspells (Nat.zero_le k) hk
  rw [List.getElem?_eq_getElem hk, hzero]

end Lexing

/-! ### Sentences -/

section Grammar
variable {V : Type}

/-- Items with commas between them. -/
def separated (items : List (List (Token V))) : List (Token V) :=
  List.intercalate [.comma] items

/-- Items with a comma behind each of them. -/
def followed (items : List (List (Token V))) : List (Token V) :=
  items.flatMap fun item => item ++ [.comma]

/-- A point is its longitude and its latitude. -/
def pointTokens (point : V × V) : List (Token V) :=
  [.opening, .number point.1, .comma, .number point.2, .closing]

def ringTokens (points : List (V × V)) : List (Token V) :=
  .opening :: separated (points.map pointTokens) ++ [.closing]

def polygonTokens (rings : List (List (V × V))) : List (Token V) :=
  .opening :: separated (rings.map ringTokens) ++ [.closing]

/-- The token sequence of one point. -/
def PointSentence (ts : List (Token V)) : Prop := ∃ point, ts = pointTokens point

/-- The token sequence of a polygon with any number of rings of at least four points. -/
def PolygonSentence (ts : List (Token V)) : Prop :=
  ∃ rings : List (List (V × V)), rings ≠ [] ∧ (∀ ring ∈ rings, 4 ≤ ring.length) ∧
    ts = polygonTokens rings

theorem separated_append (items : List (List (Token V))) {more : List (List (Token V))}
    (h : more ≠ []) : separated (items ++ more) = followed items ++ separated more := by
  induction items with
  | nil => rfl
  | cons first rest ih =>
      have hne : rest ++ more ≠ [] := by simp [h]
      simp only [separated, followed, List.cons_append, List.flatMap_cons] at ih ⊢
      rw [List.intercalate_cons_of_ne_nil hne, ih]
      simp

theorem separated_concat (items : List (List (Token V))) (item : List (Token V)) :
    separated (items ++ [item]) = followed items ++ item := by
  rw [separated_append items (List.cons_ne_nil _ _)]
  simp [separated]

@[simp] theorem followed_concat (items : List (List (Token V))) (item : List (Token V)) :
    followed (items ++ [item]) = followed items ++ item ++ [.comma] := by
  simp [followed]

/-- A comma behind separated items follows the last one. -/
theorem separated_comma {items : List (List (Token V))} (h : items ≠ []) :
    separated items ++ [.comma] = followed items := by
  obtain ⟨init, item, rfl⟩ := (List.eq_nil_or_concat' items).resolve_left h
  rw [separated_concat, followed_concat]

theorem polygonTokens_singleton (points : List (V × V)) :
    polygonTokens [points] =
      [.opening, .opening] ++ separated (points.map pointTokens) ++ [.closing, .closing] := by
  simp [polygonTokens, ringTokens, separated]

/-- One ring, cut before one of its points. -/
theorem polygonTokens_split (before rest : List (V × V)) (point : V × V) :
    ∃ more, polygonTokens [before ++ point :: rest] =
      [.opening, .opening] ++ followed (before.map pointTokens) ++ (pointTokens point ++ more) := by
  have hne : (point :: rest).map pointTokens ≠ [] := by simp
  obtain ⟨more, hmore⟩ : ∃ more, separated ((point :: rest).map pointTokens) =
      pointTokens point ++ more := by
    cases rest with
    | nil => exact ⟨[], by simp [separated]⟩
    | cons => exact ⟨_, by rw [separated, List.map_cons, List.map_cons,
        List.intercalate_cons_cons, List.append_assoc]⟩
  refine ⟨more ++ [.closing, .closing], ?_⟩
  rw [polygonTokens_singleton, List.map_append, separated_append _ hne, hmore]
  simp only [List.append_assoc]

end Grammar

end RedisS2Geo.Text
