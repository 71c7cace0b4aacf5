import Mathlib.Algebra.Order.Field.Rat
import Mathlib.Tactic.NormNum
import RedisS2Geo.Text.PointTexts

/-!
# The range of coordinates

`ParseS2LatLng` checks the point that it returns; `ParseS2Polygon` reads the same texts
without this check and turns every point into a vertex.
-/

namespace RedisS2Geo.Guarantees
open Foundation Source Text

/-- Whole numbers without a sign; points are latitude and longitude. -/
def wholeEnvironment : Environment where
  Double := Nat
  indeterminate := 0
  strtod s :=
    let digits := s.takeWhile isDigit
    (digits.foldl (fun n c => 10 * n + (c - chr '0').toNat) 0, digits.length)
  LatLng := Nat × Nat
  fromDegrees latitude longitude := (latitude, longitude)
  isValid point := point.1 ≤ 90 && point.2 ≤ 180
  Point := Nat × Nat
  toPoint := id
  pointEq a b := decide (a = b)
  getCovering _ _ := []
  cellIdOfPoint _ := leafOfOrigin

variable {env : Environment} {degrees : env.Double → Option ℚ} {body : Bytes}

/-- A longitude and a latitude that are finite and in range; `degrees` gives the value of a
finite number. -/
def InRange {V : Type} (degrees : V → Option ℚ) (point : V × V) : Prop :=
  (∃ x, degrees point.2 = some x ∧ -90 ≤ x ∧ x ≤ 90) ∧
    ∃ y, degrees point.1 = some y ∧ -180 ≤ y ∧ y ≤ 180

/-- `S2LatLng::is_valid` is the check of the range. -/
def ChecksRange (env : Environment) (degrees : env.Double → Option ℚ) : Prop :=
  ∀ point : env.Double × env.Double,
    env.isValid (env.fromDegrees point.2 point.1) = true ↔ InRange degrees point

/-- The text of a point of a polygon, from its opening to its closing bracket. -/
def PointTextIn (env : Environment) (body text : Bytes) (point : env.Double × env.Double) : Prop :=
  ∃ (pre v post : Bytes) (before : List (env.Double × env.Double)),
    text = chr '[' :: v ++ [chr ']'] ∧ body = pre ++ text ++ post ∧
      Reads (lexer env) body 0 ([.opening, .opening] ++ followed (before.map pointTokens))
        pre.length ∧
      Reads (lexer env) body pre.length (pointTokens point) (pre.length + text.length)

/-- A point is read from its opening to its closing bracket. -/
theorem exists_brackets {more : List (Token env.Double)} {point : env.Double × env.Double}
    {j e : Nat} (h : Reads (lexer env) body j (pointTokens point ++ more) e) :
    ∃ i m, Reads (lexer env) body j [] i ∧ body[i]? = some (chr '[') ∧ i < m ∧
      body[m]? = some (chr ']') ∧ Reads (lexer env) body i (pointTokens point) (m + 1) := by
  have htokens : pointTokens point ++ more =
      .opening :: ([.number point.1, .comma, .number point.2] ++ .closing :: more) := rfl
  rw [htokens] at h
  obtain ⟨i, n, hblanks, hi, hpoint⟩ := h.exists_token
  obtain ⟨m, n', hnumbers, hm, -⟩ := hpoint.exists_token_after
  have hread := (Reads.token hi hnumbers).append (Reads.single hm)
  obtain ⟨hci, rfl⟩ := (lexToken_opening_iff env).mp hi
  obtain ⟨hcm, rfl⟩ := (lexToken_closing_iff env).mp hm
  exact ⟨i, m, hblanks, hci, hnumbers.le, hcm, hread⟩

/-- Every point of a polygon has a text. -/
theorem exists_pointTextIn {points : List (env.Double × env.Double)}
    (h : PolygonText env body points) {point : env.Double × env.Double} (hpoint : point ∈ points) :
    ∃ text, PointTextIn env body text point := by
  obtain ⟨before, rest, rfl⟩ := List.append_of_mem hpoint
  obtain ⟨more, hmore⟩ := polygonTokens_split before rest point
  have hspells := h.spells
  rw [hmore] at hspells
  obtain ⟨j, hbefore, hrest⟩ := Reads.split hspells
  obtain ⟨i, m, hblanks, hci, hlt, hcm, hread⟩ := exists_brackets hrest
  obtain ⟨v, hbody, hlen⟩ := exists_between hlt hci hcm
  have hi : (body.take i).length = i :=
    List.length_take_of_le (List.getElem?_eq_some_iff.mp hci).1.le
  have hend : i + (chr '[' :: v ++ [chr ']']).length = m + 1 := by
    rw [List.length_append, List.length_cons, List.length_singleton]
    omega
  refine ⟨chr '[' :: v ++ [chr ']'], body.take i, v, body.drop (m + 1), before, rfl, hbody, ?_, ?_⟩
  · rw [hi]
    simpa using hbefore.append hblanks
  · rw [hi, hend]
    exact hread

/-- Every point of an accepted polygon is in range, and its text is an accepted point. -/
def Checked (env : Environment) (degrees : env.Double → Option ℚ) (body : Bytes)
    (out : Option (S2Polygon env.Point)) : Prop :=
  (parseS2Polygon env (some body) out).1 = 0 →
    ∀ points, PolygonText env body points → ∀ point ∈ points, InRange degrees point ∧
      ∀ text, PointTextIn env body text point → (parseS2LatLng env (some text) none).1 = 0

theorem pointText_of_inside (hstrtod : StrtodStops env) (hbody : NulFree body) {text : Bytes}
    {point : env.Double × env.Double} (h : PointTextIn env body text point) :
    NulFree text ∧ PointText env text point := by
  obtain ⟨pre, v, post, before, rfl, rfl, -, hread⟩ := h
  refine ⟨?_, spells_of_inside hstrtod hbody hread⟩
  rw [nulFree_append, nulFree_append] at hbody
  exact hbody.1.2

/-- Nothing checks the points of a polygon. -/
theorem checked_iff (hstrtod : StrtodStops env) (hrange : ChecksRange env degrees)
    (hbody : NulFree body) (out : Option (S2Polygon env.Point)) :
    Checked env degrees body out ↔
      ∀ points, PolygonText env body points → ∀ point ∈ points, InRange degrees point := by
  constructor
  · intro hchecked points htext point hpoint
    have haccepted : (parseS2Polygon env (some body) out).1 = 0 := by
      rw [parseS2Polygon_of_text hbody htext]
    exact (hchecked haccepted points htext point hpoint).1
  · intro hpoints _ points htext point hpoint
    have hin := hpoints points htext point hpoint
    refine ⟨hin, ?_⟩
    intro text hinside
    obtain ⟨hnul, hpointText⟩ := pointText_of_inside hstrtod hbody hinside
    have hvalid := (hrange point).mpr hin
    rw [parseS2LatLng_of_text hnul hpointText, latLngResult]
    simp [hvalid]

/-! ### Whole numbers -/

theorem strtodStops_whole : StrtodStops wholeEnvironment := by
  rintro x s c t - hc -
  have hdigit : isDigit c = false := test_delimiter (by decide) hc
  simp only [wholeEnvironment, takeWhile_stops hdigit]

/-- The value of a whole number. -/
def wholeDegrees (n : Nat) : Option ℚ := some n

theorem inRange_whole (longitude latitude : Nat) :
    InRange wholeDegrees (longitude, latitude) ↔ latitude ≤ 90 ∧ longitude ≤ 180 := by
  have hpos : ∀ n : Nat, (-180 : ℚ) ≤ n ∧ (-90 : ℚ) ≤ n := fun n =>
    ⟨le_trans (by norm_num) (Nat.cast_nonneg n), le_trans (by norm_num) (Nat.cast_nonneg n)⟩
  constructor
  · rintro ⟨⟨x, hx, -, hlatitude⟩, y, hy, -, hlongitude⟩
    obtain rfl := Option.some.inj hx
    obtain rfl := Option.some.inj hy
    exact ⟨by exact_mod_cast hlatitude, by exact_mod_cast hlongitude⟩
  · rintro ⟨hlatitude, hlongitude⟩
    exact ⟨⟨latitude, rfl, (hpos latitude).2, by exact_mod_cast hlatitude⟩,
      longitude, rfl, (hpos longitude).1, by exact_mod_cast hlongitude⟩

theorem checksRange_whole : ChecksRange wholeEnvironment wholeDegrees := by
  rintro ⟨longitude, latitude⟩
  refine Iff.trans ?_ (inRange_whole longitude latitude).symm
  simp [wholeEnvironment]

/-- A polygon with a longitude of 200 and a latitude of 100. -/
def farBody : Bytes := ascii "[[[0,0],[200,0],[0,100],[0,0]]]"

def farPoints : List (Nat × Nat) := [(0, 0), (200, 0), (0, 100), (0, 0)]

theorem polygonText_far : PolygonText wholeEnvironment farBody farPoints := by
  have htokens : (lexer wholeEnvironment).tokens farBody 40 0 =
      some (polygonTokens [farPoints]) := rfl
  exact ⟨by decide, by decide, reads_of_tokens htokens⟩

theorem checked_far : ¬ Checked wholeEnvironment wholeDegrees farBody none := by
  intro h
  have haccepted : (parseS2Polygon wholeEnvironment (some farBody) none).1 = 0 := by decide
  have hmem : ((200, 0) : Nat × Nat) ∈ farPoints := by decide
  obtain ⟨hin, -⟩ := h haccepted farPoints polygonText_far _ hmem
  exact absurd ((inRange_whole 200 0).mp hin).2 (by decide)

def squareBody : Bytes := ascii "[[[0,0],[180,0],[180,90],[0,90]]]"

def squarePoints : List (Nat × Nat) := [(0, 0), (180, 0), (180, 90), (0, 90)]

/-- All points of the square are in range, and each has a text that is an accepted point. -/
theorem checked_iff_square :
    Checked wholeEnvironment wholeDegrees squareBody none ∧
      ∀ point ∈ squarePoints, ∃ text, PointTextIn wholeEnvironment squareBody text point ∧
        (parseS2LatLng wholeEnvironment (some text) none).1 = 0 := by
  have htokens : (lexer wholeEnvironment).tokens squareBody 40 0 =
      some (polygonTokens [squarePoints]) := rfl
  have htext : PolygonText wholeEnvironment squareBody squarePoints :=
    ⟨by decide, by decide, reads_of_tokens htokens⟩
  have hall : ∀ point ∈ squarePoints, point.2 ≤ 90 ∧ point.1 ≤ 180 := by decide
  have hchecked : Checked wholeEnvironment wholeDegrees squareBody none := by
    apply (checked_iff strtodStops_whole checksRange_whole (by decide) none).mpr
    intro points hpoints point hpoint
    obtain rfl := hpoints.unique htext
    exact (inRange_whole point.1 point.2).mpr (hall point hpoint)
  have haccepted : (parseS2Polygon wholeEnvironment (some squareBody) none).1 = 0 := by
    rw [parseS2Polygon_of_text (by decide) htext]
  refine ⟨hchecked, fun point hpoint => ?_⟩
  obtain ⟨text, hinside⟩ := exists_pointTextIn htext hpoint
  exact ⟨text, hinside, (hchecked haccepted squarePoints htext point hpoint).2 text hinside⟩

end RedisS2Geo.Guarantees
