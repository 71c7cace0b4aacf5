import RedisS2Geo.Text.PointTexts
import RedisS2Geo.Store.Runs

/-!
# What the two readers accept

`ParseS2Polygon` accepts the texts of one ring of 4 to 64 points, and `ParseS2LatLng`
the texts of one point in range.
-/

namespace RedisS2Geo.Guarantees
open Foundation Source Text Store

variable {env : Environment} {body : Bytes}

/-! ### Polygons -/

/-- The vertices of a ring, closing vertex included. -/
def vertices (env : Environment) (points : List (env.Double × env.Double)) : List env.Point :=
  points.map fun point => env.toPoint (env.fromDegrees point.2 point.1)

theorem loopOf_eq {points : List (env.Double × env.Double)} {first last : env.Point}
    (hfirst : (vertices env points).head? = some first)
    (hlast : (vertices env points).getLast? = some last) :
    loopOf env points =
      if env.pointEq first last then (vertices env points).dropLast else vertices env points := by
  have hvertices : points.map (vertex env) = vertices env points := rfl
  rw [loopOf, hvertices, dropClosing, hfirst, hlast]

/-- The accepted bodies are the texts of one ring, and the polygon returned has the loop of
this ring without a closing vertex that equals the first one. Nothing is returned for any
other body. -/
theorem polygon_grammar (hbody : NulFree body) (out : Option (S2Polygon env.Point)) :
    ((parseS2Polygon env (some body) out).1 = 0 ↔ ∃ points, PolygonText env body points) ∧
      (∀ points, PolygonText env body points → ∃ first last,
        (vertices env points).head? = some first ∧ (vertices env points).getLast? = some last ∧
          (parseS2Polygon env (some body) out).2 =
            some ⟨[if env.pointEq first last then (vertices env points).dropLast
              else vertices env points]⟩) ∧
      ((¬ ∃ points, PolygonText env body points) →
        (parseS2Polygon env (some body) out).2 = none) := by
  have hiff : (parseS2Polygon env (some body) out).1 = 0 ↔
      ∃ points, PolygonText env body points := by
    constructor
    · exact exists_text_of_accepted hbody
    · rintro ⟨points, h⟩
      rw [parseS2Polygon_of_text hbody h]
  refine ⟨hiff, ?_, ?_⟩
  · intro points h
    have hne : vertices env points ≠ [] := by
      have hpos : 0 < points.length := lt_of_lt_of_le (by omega) h.min
      apply List.ne_nil_of_length_pos
      rw [vertices, List.length_map]
      exact hpos
    have hfirst := List.head?_eq_some_head hne
    have hlast := List.getLast?_eq_some_getLast hne
    refine ⟨_, _, hfirst, hlast, ?_⟩
    rw [parseS2Polygon_of_text hbody h, loopOf_eq hfirst hlast]
  · intro h
    apply parseS2Polygon_rejected
    rwa [Ne, hiff]

theorem polygon_grammar_triangle :
    ∃ points, PolygonText sampleEnvironment triangleBody points ∧
      (parseS2Polygon sampleEnvironment (some triangleBody) none).1 = 0 := by
  have hbody : NulFree triangleBody := by decide
  have haccepted : (parseS2Polygon sampleEnvironment (some triangleBody) none).1 = 0 := by decide
  obtain ⟨points, h⟩ := (polygon_grammar hbody none).1.mp haccepted
  exact ⟨points, h, haccepted⟩

/-! ### Points -/

theorem point_accepted_iff (hbody : NulFree body) (out : Option env.LatLng) :
    (parseS2LatLng env (some body) out).1 = 0 ↔ ∃ point, PointText env body point ∧
      env.isValid (env.fromDegrees point.2 point.1) = true := by
  constructor
  · intro h
    obtain ⟨point, htext⟩ := exists_pointText_of_accepted hbody h
    refine ⟨point, htext, ?_⟩
    rw [parseS2LatLng_of_text hbody htext, latLngResult] at h
    by_contra hinvalid
    simp only [hinvalid, if_false] at h
    exact absurd h (Int.ne_of_lt (errorAt_neg _))
  · rintro ⟨point, htext, hvalid⟩
    rw [parseS2LatLng_of_text hbody htext, latLngResult]
    simp [hvalid]

/-- The points behind a list of accepted texts. -/
theorem exists_points {texts : List PaddedText} {latLngs : List env.LatLng}
    (h : List.Forall₂ (fun t latLng => NulFree t.text ∧
      parseS2LatLng env (some t.text) none = (0, some latLng)) texts latLngs) :
    ∃ items : List (PaddedText × (env.Double × env.Double)), items.map Prod.fst = texts ∧
      (∀ item ∈ items, NulFree item.1.text) ∧
      (∀ item ∈ items, PointText env item.1.text item.2) ∧
      latLngs = items.map fun item => env.fromDegrees item.2.2 item.2.1 := by
  induction h with
  | nil => exact ⟨[], rfl, by simp, by simp, rfl⟩
  | @cons t latLng texts latLngs ht _ ih =>
      obtain ⟨items, rfl, hnul, htexts, rfl⟩ := ih
      obtain ⟨hbody, hparse⟩ := ht
      obtain ⟨point, htext, hvalid⟩ := (point_accepted_iff hbody none).mp (by rw [hparse])
      have hlatLng : latLng = env.fromDegrees point.2 point.1 := by
        rw [parseS2LatLng_of_text hbody htext, latLngResult] at hparse
        simpa [hvalid, eq_comm] using hparse
      refine ⟨(t, point) :: items, rfl, ?_, ?_, ?_⟩
      · simpa [hbody] using hnul
      · simpa [htext] using htexts
      · rw [List.map_cons, hlatLng]

/-- The vertices that the loop has pushed when it gets to the end of a ring. -/
def Pushes (env : Environment) (body : Bytes) (vertices : List env.Point) : Prop :=
  ∃ s, Rounds (fun s => charAt body s.i != 0) (polygonRound env body) (polygonInit env) s ∧
    s.state = .loopDelim ∧ charAt body s.i = chr ']' ∧ s.vertices = vertices

/-- Accepted points, put between brackets and commas, make up an accepted polygon with their
vertices. -/
theorem parse_polygonOf (hstrtod : StrtodStops env) {texts : List PaddedText}
    {latLngs : List env.LatLng} {a b c d : Nat} (hmin : 4 ≤ texts.length)
    (hmax : texts.length ≤ 64)
    (hall : List.Forall₂ (fun t latLng => NulFree t.text ∧
      parseS2LatLng env (some t.text) none = (0, some latLng)) texts latLngs)
    (out : Option (S2Polygon env.Point)) :
    Pushes env (polygonOf a b c d texts) (latLngs.map env.toPoint) ∧
      parseS2Polygon env (some (polygonOf a b c d texts)) out =
        (0, some ⟨[dropClosing env (latLngs.map env.toPoint)]⟩) := by
  obtain ⟨items, rfl, hnul, htexts, rfl⟩ := exists_points hall
  have hbody : NulFree (polygonOf a b c d (items.map Prod.fst)) := by
    apply nulFree_polygonOf
    intro t ht
    obtain ⟨item, hitem, rfl⟩ := List.mem_map.mp ht
    exact hnul item hitem
  rw [List.length_map] at hmin hmax
  have htext : PolygonText env (polygonOf a b c d (items.map Prod.fst)) (items.map Prod.snd) :=
    ⟨by simpa using hmin, by simpa using hmax, spells_polygonOf hstrtod hnul htexts⟩
  have hvertices : (items.map Prod.snd).map (vertex env) =
      (items.map fun item => env.fromDegrees item.2.2 item.2.1).map env.toPoint := by
    simp [vertex]
  constructor
  · rw [← hvertices]
    exact pushed_of_text hbody htext
  · rw [parseS2Polygon_of_text hbody htext, loopOf, hvertices]

/-- `ParseS2LatLng` accepts the texts of one point in range. Where `strtod` is not affected
by what follows a delimiter, accepted points make up an accepted polygon, and its vertices
are those of the points. -/
theorem parsers_agree :
    (∀ body out, NulFree body →
      ((parseS2LatLng env (some body) out).1 = 0 ↔ ∃ point, PointText env body point ∧
        env.isValid (env.fromDegrees point.2 point.1) = true) ∧
      ∀ point, PointText env body point → env.isValid (env.fromDegrees point.2 point.1) = true →
        (parseS2LatLng env (some body) out).2 = some (env.fromDegrees point.2 point.1)) ∧
    (StrtodStops env → ∀ (texts : List PaddedText) (latLngs : List env.LatLng) (a b c d : Nat) out,
      4 ≤ texts.length → texts.length ≤ 64 →
      List.Forall₂ (fun t latLng => NulFree t.text ∧
        parseS2LatLng env (some t.text) none = (0, some latLng)) texts latLngs →
      Pushes env (polygonOf a b c d texts) (latLngs.map env.toPoint) ∧
        parseS2Polygon env (some (polygonOf a b c d texts)) out =
          (0, some ⟨[dropClosing env (latLngs.map env.toPoint)]⟩)) := by
  constructor
  · intro body out hbody
    refine ⟨point_accepted_iff hbody out, ?_⟩
    intro point htext hvalid
    rw [parseS2LatLng_of_text hbody htext, latLngResult]
    simp [hvalid]
  · intro hstrtod texts latLngs a b c d out hmin hmax hall
    exact parse_polygonOf hstrtod hmin hmax hall out

/-- Four points with spaces in several places. -/
theorem parsers_agree_sample :
    parseS2Polygon sampleEnvironment
      (some (polygonOf 1 0 2 0 [⟨0, ascii "[0,0]", 1⟩, ⟨2, ascii "[1 ,2]", 0⟩,
        ⟨0, ascii "[ 3,.5]", 0⟩, ⟨0, ascii " [0,0] ", 0⟩])) none =
      (0, some ⟨[[(ascii "0", ascii "0"), (ascii "2", ascii "1"), (ascii ".5", ascii "3")]]⟩) := by
  have hagree := (@parsers_agree sampleEnvironment).2 strtodStops_sample
    [⟨0, ascii "[0,0]", 1⟩, ⟨2, ascii "[1 ,2]", 0⟩, ⟨0, ascii "[ 3,.5]", 0⟩,
      ⟨0, ascii " [0,0] ", 0⟩]
    [(ascii "0", ascii "0"), (ascii "2", ascii "1"), (ascii ".5", ascii "3"),
      (ascii "0", ascii "0")] 1 0 2 0 none (by decide) (by decide)
    (.cons ⟨by decide, rfl⟩ (.cons ⟨by decide, rfl⟩ (.cons ⟨by decide, rfl⟩
      (.cons ⟨by decide, rfl⟩ .nil))))
  exact hagree.2

end RedisS2Geo.Guarantees
