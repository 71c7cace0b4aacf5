import RedisS2Geo.Foundation.BoundedLoop
import RedisS2Geo.Source.Environment

/-!
# Reading points and polygons (`parser.cc`)

Both readers walk over a C string with one state per expected token. A space is
skipped in every state, and a syntax error returns `-i - 1` for the index `i` of
the byte that does not fit.

## Implementation notes

The index is a natural number, so texts are taken to be short enough for a
C `int`. Each round of a loop moves the index forward, and a body of `n` bytes is
over after at most `n` rounds; `scan_ends` shows that this bound never decides.
-/

namespace RedisS2Geo.Source
open Foundation

/-- `enum ParsingState`. -/
inductive ParsingState where
  | polygonStart
  | loopStart
  | pointStart
  | pointLon
  | pointDelim
  | pointLat
  | pointEnd
  | loopDelim
  | polygonDelim
  | eol
  deriving DecidableEq

/-- `LOOP_LIMIT`. -/
def loopLimit : Nat := 1

/-- `POINT_LIMIT`. -/
def pointLimit : Nat := 64

/-- `PARSE_ERR_LOOP_LIMIT`. -/
def parseErrLoopLimit : Int := 1

/-- `PARSE_ERR_POINT_LIMIT`, which neither reader returns. -/
def parseErrPointLimit : Int := 2

/-- `body[i]`, with the terminating zero behind the last byte. -/
def charAt (body : Bytes) (i : Nat) : UInt8 := body.getD i 0

/-- The value returned for a byte that does not fit. -/
def errorAt (i : Nat) : Int := -(i : Int) - 1

/-- `isdigit` in the C locale. -/
def isDigit (c : UInt8) : Bool := chr '0' ≤ c && c ≤ chr '9'

/-- The test for the first byte of a coordinate. -/
def startsNumber (c : UInt8) : Bool :=
  isDigit c || c == chr '-' || c == chr '+' || c == chr '.'

/-- The coordinate branch shared by the four states that read a number: the value
and the index behind it, or `none` when the byte or the numeral does not fit. -/
def readNumber (env : Environment) (body : Bytes) (i : Nat) : Option (env.Double × Nat) :=
  if startsNumber (charAt body i) then
    let read := env.strtod (cString (body.drop i))
    if 0 < read.2 then some (read.1, i + read.2) else none
  else none

section LatLng
variable (env : Environment) (body : Bytes)

/-- The local variables of `ParseS2LatLng`. -/
structure LatLngScan (env : Environment) where
  state : ParsingState
  i : Nat
  latitude : env.Double
  longitude : env.Double

/-- One round of the loop of `ParseS2LatLng`. -/
def latLngRound (s : LatLngScan env) : Except Int (LatLngScan env) :=
  let c := charAt body s.i
  if c = chr ' ' then .ok { s with i := s.i + 1 }
  else
    match s.state with
    | .pointStart =>
        if c = chr '[' then .ok { s with state := .pointLon, i := s.i + 1 }
        else .error (errorAt s.i)
    | .pointLon =>
        match readNumber env body s.i with
        | some (value, i) => .ok { s with longitude := value, state := .pointDelim, i := i }
        | none => .error (errorAt s.i)
    | .pointDelim =>
        if c = chr ',' then .ok { s with state := .pointLat, i := s.i + 1 }
        else .error (errorAt s.i)
    | .pointLat =>
        match readNumber env body s.i with
        | some (value, i) => .ok { s with latitude := value, state := .pointEnd, i := i }
        | none => .error (errorAt s.i)
    | .pointEnd =>
        if c = chr ']' then .ok { s with state := .eol, i := s.i + 1 }
        else .error (errorAt s.i)
    | _ => .error (errorAt s.i)

/-- The variables before the first round. -/
def latLngInit : LatLngScan env := ⟨.pointStart, 0, env.indeterminate, env.indeterminate⟩

/-- `ParseS2LatLng`: the return value and the content of `*latLng` afterwards. A null
body leaves `*latLng` as it was. -/
def parseS2LatLng (body : Option Bytes) (latLng : Option env.LatLng) :
    Int × Option env.LatLng :=
  match body with
  | none => (-1, latLng)
  | some body =>
      match boundedLoop (fun s => charAt body s.i != 0) (latLngRound env body) body.length
          (latLngInit env) with
      | .error ret => (ret, none)
      | .ok s =>
          if s.state ≠ .eol then (errorAt s.i, none)
          else
            let point := env.fromDegrees s.latitude s.longitude
            if env.isValid point then (0, some point) else (errorAt s.i, none)

end LatLng

section Polygon
variable (env : Environment) (body : Bytes)

/-- The local variables of `ParseS2Polygon`. -/
structure PolygonScan (env : Environment) where
  state : ParsingState
  i : Nat
  pointCount : Nat
  loopCount : Nat
  latitude : env.Double
  longitude : env.Double
  vertices : List env.Point
  loops : List (S2Loop env.Point)

/-- Drop the last vertex when it equals the first one. -/
def dropClosing (vertices : List env.Point) : List env.Point :=
  match vertices.head?, vertices.getLast? with
  | some first, some last => if env.pointEq first last then vertices.dropLast else vertices
  | _, _ => vertices

/-- One round of the loop of `ParseS2Polygon`. -/
def polygonRound (s : PolygonScan env) : Except Int (PolygonScan env) :=
  let c := charAt body s.i
  if c = chr ' ' then .ok { s with i := s.i + 1 }
  else
    match s.state with
    | .polygonStart =>
        if c = chr '[' then .ok { s with state := .loopStart, i := s.i + 1 }
        else .error (errorAt s.i)
    | .loopStart =>
        if c = chr '[' then
          if loopLimit ≤ s.loopCount then .error parseErrLoopLimit
          else .ok { s with state := .pointStart, i := s.i + 1 }
        else .error (errorAt s.i)
    | .pointStart =>
        if c = chr '[' then
          -- the limit itself is returned here, not one of the two error codes
          if pointLimit ≤ s.pointCount then .error pointLimit
          else .ok { s with state := .pointLon, i := s.i + 1 }
        else .error (errorAt s.i)
    | .pointLon =>
        match readNumber env body s.i with
        | some (value, i) => .ok { s with longitude := value, state := .pointDelim, i := i }
        | none => .error (errorAt s.i)
    | .pointDelim =>
        if c = chr ',' then .ok { s with state := .pointLat, i := s.i + 1 }
        else .error (errorAt s.i)
    | .pointLat =>
        match readNumber env body s.i with
        | some (value, i) => .ok { s with latitude := value, state := .pointEnd, i := i }
        | none => .error (errorAt s.i)
    | .pointEnd =>
        if c = chr ']' then
          .ok { s with
            pointCount := s.pointCount + 1
            vertices := s.vertices ++ [env.toPoint (env.fromDegrees s.latitude s.longitude)]
            state := .loopDelim
            i := s.i + 1 }
        else .error (errorAt s.i)
    | .loopDelim =>
        if c = chr ',' then .ok { s with state := .pointStart, i := s.i + 1 }
        else if c = chr ']' then
          if s.vertices.length < 4 then .error (errorAt s.i)
          else
            .ok { s with
              loops := s.loops ++ [dropClosing env s.vertices]
              loopCount := s.loopCount + 1
              vertices := []
              pointCount := 0
              state := .polygonDelim
              i := s.i + 1 }
        else .error (errorAt s.i)
    | .polygonDelim =>
        if c = chr ',' then .ok { s with state := .loopStart, i := s.i + 1 }
        else if c = chr ']' then .ok { s with state := .eol, i := s.i + 1 }
        else .error (errorAt s.i)
    | .eol => .error (errorAt s.i)

/-- The variables before the first round. -/
def polygonInit : PolygonScan env :=
  ⟨.polygonStart, 0, 0, 0, env.indeterminate, env.indeterminate, [], []⟩

/-- `ParseS2Polygon`: the return value and the content of `*polygon` afterwards. A null
body leaves `*polygon` as it was. -/
def parseS2Polygon (body : Option Bytes) (polygon : Option (S2Polygon env.Point)) :
    Int × Option (S2Polygon env.Point) :=
  match body with
  | none => (-1, polygon)
  | some body =>
      match boundedLoop (fun s => charAt body s.i != 0) (polygonRound env body) body.length
          (polygonInit env) with
      | .error ret => (ret, none)
      | .ok s =>
          if s.state ≠ .eol then (errorAt s.i, none)
          else if s.loops.length < 1 then (errorAt s.i, none)
          else (0, some ⟨s.loops⟩)

end Polygon

/-! ### The bound on the rounds -/

theorem lt_length_of_charAt (body : Bytes) (i : Nat) (h : charAt body i ≠ 0) :
    i < body.length := by
  by_contra hi
  exact h (by simp [charAt, Nat.le_of_not_lt hi])

theorem readNumber_lt {env : Environment} {body : Bytes} {i j : Nat} {value : env.Double}
    (h : readNumber env body i = some (value, j)) : i < j := by
  simp only [readNumber, Option.ite_none_right_eq_some, Option.some.injEq,
    Prod.mk.injEq] at h
  omega

theorem latLngRound_lt {env : Environment} {body : Bytes} {s t : LatLngScan env}
    (h : latLngRound env body s = .ok t) : s.i < t.i := by
  simp only [latLngRound] at h
  split at h
  · cases h
    simp
  · split at h <;> (try split at h) <;> cases h <;>
      first | exact readNumber_lt ‹_› | simp

theorem polygonRound_lt {env : Environment} {body : Bytes} {s t : PolygonScan env}
    (h : polygonRound env body s = .ok t) : s.i < t.i := by
  simp only [polygonRound] at h
  split at h
  · cases h
    simp
  · split at h <;> (try split at h) <;> (try split at h) <;> (try split at h) <;> cases h <;>
      first | exact readNumber_lt ‹_› | simp

section Scan
variable {σ : Type*} {body : Bytes} {index : σ → Nat} {round : σ → Except Int σ} {s t : σ}

/-- A loop over the body ends regularly in the state that its rounds lead to at the
terminating zero, when every round moves the index forward. -/
theorem scan_eq_ok_iff (hround : ∀ s t, round s = .ok t → index s < index t) :
    boundedLoop (fun s => charAt body (index s) != 0) round body.length s = .ok t ↔
      Rounds (fun s => charAt body (index s) != 0) round s t ∧
        (charAt body (index t) != 0) = false := by
  apply boundedLoop_eq_ok_iff (fun s => body.length - index s) _ _ (Nat.sub_le _ _)
  · intro s hm
    have := lt_length_of_charAt body (index s) (by simpa using hm)
    omega
  · intro s s' hm hs
    have hlt := hround s s' hs
    have := lt_length_of_charAt body (index s) (by simpa using hm)
    omega

/-- Such a loop returns early from the state in which a round returns. -/
theorem scan_eq_error_iff (hround : ∀ s t, round s = .ok t → index s < index t) {e : Int} :
    boundedLoop (fun s => charAt body (index s) != 0) round body.length s = .error e ↔
      ∃ t, Rounds (fun s => charAt body (index s) != 0) round s t ∧
        (charAt body (index t) != 0) = true ∧ round t = .error e := by
  apply boundedLoop_eq_error_iff (fun s => body.length - index s) _ _ (Nat.sub_le _ _)
  · intro s hm
    have := lt_length_of_charAt body (index s) (by simpa using hm)
    omega
  · intro s s' hm hs
    have hlt := hround s s' hs
    have := lt_length_of_charAt body (index s) (by simpa using hm)
    omega

/-- The loop ends at the terminating zero, never because its bound is used up. -/
theorem scan_ends (hround : ∀ s t, round s = .ok t → index s < index t)
    (h : boundedLoop (fun s => charAt body (index s) != 0) round body.length s = .ok t) :
    charAt body (index t) = 0 := by
  obtain ⟨-, hdone⟩ := (scan_eq_ok_iff hround).mp h
  simpa using hdone

end Scan

end RedisS2Geo.Source
