import RedisS2Geo.Foundation.LoopRelations
import RedisS2Geo.Source.Module

/-!
# The coordinates that are declared without a value

Both parsers declare `latitude` and `longitude` without an initial value, and both read
them in a state that is only reached through the assignments. No reply and no effect of
any command depends on what the two variables hold at first, for any text.
-/

namespace RedisS2Geo.Guarantees
open Foundation Source

/-- The same library, with another value in every uninitialised variable. -/
abbrev withIndeterminate (env : Environment) (d : env.Double) : Environment :=
  { env with indeterminate := d }

variable {env : Environment} {d : env.Double}

/-- The states in which `longitude` holds the value of the present point. -/
def LongitudeRead : ParsingState → Prop
  | .pointDelim | .pointLat | .pointEnd | .eol => True
  | _ => False

/-- The states in which `latitude` holds the value of the present point. -/
def LatitudeRead : ParsingState → Prop
  | .pointEnd | .eol => True
  | _ => False

/-! ### Points -/

/-- Two scans of one text that agree on everything they have assigned. -/
structure SamePoint (s : LatLngScan env) (t : LatLngScan (withIndeterminate env d)) : Prop where
  state : s.state = t.state
  i : s.i = t.i
  longitude : LongitudeRead s.state → s.longitude = t.longitude
  latitude : LatitudeRead s.state → s.latitude = t.latitude

theorem latLngRound_same (body : Bytes) (s : LatLngScan env)
    (t : LatLngScan (withIndeterminate env d)) (h : SamePoint s t) :
    SameResult SamePoint (latLngRound env body s)
      (latLngRound (withIndeterminate env d) body t) := by
  obtain ⟨state, i, latitude, longitude⟩ := s
  obtain ⟨state', i', latitude', longitude'⟩ := t
  obtain ⟨hstate, hi, hlon, hlat⟩ := h
  dsimp only at hstate hi hlon hlat
  subst hstate hi
  unfold latLngRound
  apply SameResult.ite
  · exact fun _ => .ok ⟨rfl, rfl, hlon, hlat⟩
  · intro _
    cases state with
    | pointStart =>
        exact .ite (fun _ => .ok ⟨rfl, rfl, False.elim, False.elim⟩) fun _ => .error _
    | pointLon =>
        cases hr : readNumber env body i with
        | none =>
            have hr' : readNumber (withIndeterminate env d) body i = none := hr
            simp only [hr']
            exact .error _
        | some read =>
            have hr' : readNumber (withIndeterminate env d) body i = some read := hr
            simp only [hr']
            exact .ok ⟨rfl, rfl, fun _ => rfl, False.elim⟩
    | pointDelim =>
        refine .ite (fun _ => ?_) fun _ => .error _
        exact .ok ⟨rfl, rfl, fun _ => hlon trivial, False.elim⟩
    | pointLat =>
        cases hr : readNumber env body i with
        | none =>
            have hr' : readNumber (withIndeterminate env d) body i = none := hr
            simp only [hr']
            exact .error _
        | some read =>
            have hr' : readNumber (withIndeterminate env d) body i = some read := hr
            simp only [hr']
            exact .ok ⟨rfl, rfl, fun _ => hlon trivial, fun _ => rfl⟩
    | pointEnd =>
        exact .ite (fun _ => .ok ⟨rfl, rfl, fun _ => hlon trivial, fun _ => hlat trivial⟩)
          fun _ => .error _
    | _ => exact .error _

theorem parseS2LatLng_indeterminate (env : Environment) (d : env.Double) (body : Option Bytes)
    (latLng : Option env.LatLng) :
    parseS2LatLng (withIndeterminate env d) body latLng = parseS2LatLng env body latLng := by
  cases body with
  | none => rfl
  | some body =>
      have hinit : SamePoint (latLngInit env) (latLngInit (withIndeterminate env d)) :=
        ⟨rfl, rfl, False.elim, False.elim⟩
      have hmore : ∀ (s : LatLngScan env) (t : LatLngScan (withIndeterminate env d)),
          SamePoint s t → (charAt body s.i != 0) = (charAt body t.i != 0) := fun s t h => by
        rw [h.i]
      have hloop := boundedLoop_related hmore (latLngRound_same body) body.length hinit
      simp only [parseS2LatLng]
      generalize boundedLoop (fun s : LatLngScan env => charAt body s.i != 0)
        (latLngRound env body) body.length (latLngInit env) = r at hloop ⊢
      generalize boundedLoop
        (fun s : LatLngScan (withIndeterminate env d) => charAt body s.i != 0)
        (latLngRound (withIndeterminate env d) body) body.length
        (latLngInit (withIndeterminate env d)) = r' at hloop ⊢
      cases hloop with
      | error e => rfl
      | @ok s t h =>
          obtain ⟨state, i, latitude, longitude⟩ := s
          obtain ⟨state', i', latitude', longitude'⟩ := t
          obtain ⟨hstate, hi, hlon, hlat⟩ := h
          dsimp only at hstate hi hlon hlat
          subst hstate hi
          by_cases he : state = .eol
          · subst he
            obtain rfl := hlon trivial
            obtain rfl := hlat trivial
            rfl
          · simp only [if_pos he]

/-! ### Polygons -/

/-- Two scans of one text that agree on everything they have assigned. -/
structure SamePolygon (s : PolygonScan env) (t : PolygonScan (withIndeterminate env d)) :
    Prop where
  state : s.state = t.state
  i : s.i = t.i
  pointCount : s.pointCount = t.pointCount
  loopCount : s.loopCount = t.loopCount
  longitude : s.state ≠ .eol → LongitudeRead s.state → s.longitude = t.longitude
  latitude : s.state ≠ .eol → LatitudeRead s.state → s.latitude = t.latitude
  vertices : s.vertices = t.vertices
  loops : s.loops = t.loops

theorem dropClosing_indeterminate (vertices : List env.Point) :
    dropClosing env vertices = dropClosing (withIndeterminate env d) vertices := by
  cases vertices <;> rfl

theorem polygonRound_same (body : Bytes) (s : PolygonScan env)
    (t : PolygonScan (withIndeterminate env d)) (h : SamePolygon s t) :
    SameResult SamePolygon (polygonRound env body s)
      (polygonRound (withIndeterminate env d) body t) := by
  obtain ⟨state, i, pointCount, loopCount, latitude, longitude, vertices, loops⟩ := s
  obtain ⟨state', i', pointCount', loopCount', latitude', longitude', vertices', loops'⟩ := t
  obtain ⟨hstate, hi, hpoints, hloops, hlon, hlat, hvertices, hrings⟩ := h
  dsimp only at hstate hi hpoints hloops hlon hlat hvertices hrings
  subst hstate hi hpoints hloops hvertices hrings
  unfold polygonRound
  apply SameResult.ite
  · exact fun _ => .ok ⟨rfl, rfl, rfl, rfl, hlon, hlat, rfl, rfl⟩
  · intro _
    cases state with
    | polygonStart =>
        refine .ite (fun _ => ?_) fun _ => .error _
        exact .ok ⟨rfl, rfl, rfl, rfl, fun _ => False.elim, fun _ => False.elim, rfl, rfl⟩
    | loopStart | pointStart =>
        refine .ite (fun _ => .ite (fun _ => .error _) fun _ => ?_) fun _ => .error _
        exact .ok ⟨rfl, rfl, rfl, rfl, fun _ => False.elim, fun _ => False.elim, rfl, rfl⟩
    | polygonDelim =>
        refine .ite (fun _ => ?_) fun _ => .ite (fun _ => ?_) fun _ => .error _
        · exact .ok ⟨rfl, rfl, rfl, rfl, fun _ => False.elim, fun _ => False.elim, rfl, rfl⟩
        · exact .ok ⟨rfl, rfl, rfl, rfl, fun hne => absurd rfl hne, fun hne => absurd rfl hne,
            rfl, rfl⟩
    | pointLon =>
        cases hr : readNumber env body i with
        | none =>
            have hr' : readNumber (withIndeterminate env d) body i = none := hr
            simp only [hr']
            exact .error _
        | some read =>
            have hr' : readNumber (withIndeterminate env d) body i = some read := hr
            simp only [hr']
            exact .ok ⟨rfl, rfl, rfl, rfl, fun _ _ => rfl, fun _ => False.elim, rfl, rfl⟩
    | pointDelim =>
        have hne : ParsingState.pointDelim ≠ .eol := by decide
        refine .ite (fun _ => ?_) fun _ => .error _
        have hlon' := hlon hne trivial
        exact .ok ⟨rfl, rfl, rfl, rfl, fun _ _ => hlon', fun _ => False.elim, rfl, rfl⟩
    | pointLat =>
        have hne : ParsingState.pointLat ≠ .eol := by decide
        cases hr : readNumber env body i with
        | none =>
            have hr' : readNumber (withIndeterminate env d) body i = none := hr
            simp only [hr']
            exact .error _
        | some read =>
            have hr' : readNumber (withIndeterminate env d) body i = some read := hr
            simp only [hr']
            have hlon' := hlon hne trivial
            exact .ok ⟨rfl, rfl, rfl, rfl, fun _ _ => hlon', fun _ _ => rfl, rfl, rfl⟩
    | pointEnd =>
        have hne : ParsingState.pointEnd ≠ .eol := by decide
        -- the only state that uses both coordinates
        obtain rfl := hlon hne trivial
        obtain rfl := hlat hne trivial
        refine .ite (fun _ => ?_) fun _ => .error _
        exact .ok ⟨rfl, rfl, rfl, rfl, fun _ => False.elim, fun _ => False.elim, rfl, rfl⟩
    | loopDelim =>
        have hclosing : dropClosing env vertices = dropClosing (withIndeterminate env d) vertices :=
          dropClosing_indeterminate vertices
        refine .ite (fun _ => ?_) fun _ =>
          .ite (fun _ => .ite (fun _ => .error _) fun _ => ?_) fun _ => .error _
        · exact .ok ⟨rfl, rfl, rfl, rfl, fun _ => False.elim, fun _ => False.elim, rfl, rfl⟩
        · exact .ok ⟨rfl, rfl, rfl, rfl, fun _ => False.elim, fun _ => False.elim, rfl,
            congrArg (fun ring => loops ++ [ring]) hclosing⟩
    | eol => exact .error _

theorem parseS2Polygon_indeterminate (env : Environment) (d : env.Double) (body : Option Bytes)
    (polygon : Option (S2Polygon env.Point)) :
    parseS2Polygon (withIndeterminate env d) body polygon = parseS2Polygon env body polygon := by
  cases body with
  | none => rfl
  | some body =>
      have hinit : SamePolygon (polygonInit env) (polygonInit (withIndeterminate env d)) :=
        ⟨rfl, rfl, rfl, rfl, fun _ => False.elim, fun _ => False.elim, rfl, rfl⟩
      have hmore : ∀ (s : PolygonScan env) (t : PolygonScan (withIndeterminate env d)),
          SamePolygon s t → (charAt body s.i != 0) = (charAt body t.i != 0) := fun s t h => by
        rw [h.i]
      have hloop := boundedLoop_related hmore (polygonRound_same body) body.length hinit
      simp only [parseS2Polygon]
      generalize boundedLoop (fun s : PolygonScan env => charAt body s.i != 0)
        (polygonRound env body) body.length (polygonInit env) = r at hloop ⊢
      generalize boundedLoop
        (fun s : PolygonScan (withIndeterminate env d) => charAt body s.i != 0)
        (polygonRound (withIndeterminate env d) body) body.length
        (polygonInit (withIndeterminate env d)) = r' at hloop ⊢
      cases hloop with
      | error e => rfl
      | @ok s t h =>
          simp only [h.state, h.i, h.loops]

/-! ### Commands -/

/-- No command depends on the value of an uninitialised coordinate: with any other value
in it, every command replies the same and leaves the same keyspace. -/
theorem uninitialised_unread (env : Environment) (d : env.Double) (ω : Orders) (c : Command)
    (K : Keyspace Bytes) :
    exec (withIndeterminate env d) ω c K = exec env ω c K := by
  have hpolygon : ∀ b, parsePolygon (withIndeterminate env d) b = parsePolygon env b := fun b =>
    congrArg (fun parsed : Int × Option (S2Polygon env.Point) =>
      if parsed.1 ≠ 0 then none else parsed.2) (parseS2Polygon_indeterminate env d (some b) none)
  have hpoint : ∀ b, parseLatLng (withIndeterminate env d) b = parseLatLng env b := fun b =>
    congrArg (fun parsed : Int × Option env.LatLng =>
      if parsed.1 ≠ 0 then none else parsed.2) (parseS2LatLng_indeterminate env d (some b) none)
  obtain ⟨name, args⟩ := c
  cases name with
  | polyset =>
      rcases args with _ | ⟨i, _ | ⟨n, _ | ⟨b, _ | ⟨a, args⟩⟩⟩⟩
      case cons.cons.cons.nil =>
        simp only [exec, setPolygonCommand, hpolygon]
        cases parsePolygon env b <;> rfl
      all_goals rfl
  | polysearch =>
      rcases args with _ | ⟨i, _ | ⟨b, _ | ⟨a, args⟩⟩⟩
      case cons.cons.nil =>
        simp only [exec, searchPolygonCommand, hpolygon]
        cases parsePolygon env b <;> rfl
      all_goals rfl
  | pointsearch =>
      rcases args with _ | ⟨i, _ | ⟨b, _ | ⟨a, args⟩⟩⟩
      case cons.cons.nil =>
        simp only [exec, searchPointCommand, hpoint]
        cases parseLatLng env b <;> rfl
      all_goals rfl
  | _ => rfl

end RedisS2Geo.Guarantees
