import RedisS2Geo.Foundation.TokenMachine
import RedisS2Geo.Text.Tokens

/-!
# The token machine behind `ParseS2Polygon`

The states of the parser, over tokens instead of bytes and without its two limits.
A state spells out the tokens that led to it, and every state leads on to a whole
polygon, so that the machine reads exactly the prefixes of polygon texts with any
number of rings.
-/

namespace RedisS2Geo.Text
open Foundation Source

/-- The state of the parser between two tokens: the complete rings, the complete points of
the open ring, and the last coordinates. -/
structure PolygonState (V : Type) where
  state : ParsingState
  rings : List (List (V × V))
  points : List (V × V)
  longitude : V
  latitude : V

variable {V : Type}

/-- The next state after a token; `none` when the token may not follow. -/
def polygonStep (q : PolygonState V) : Token V → Option (PolygonState V)
  | .opening =>
      match q.state with
      | .polygonStart => some { q with state := .loopStart }
      | .loopStart => some { q with state := .pointStart }
      | .pointStart => some { q with state := .pointLon }
      | _ => none
  | .number value =>
      match q.state with
      | .pointLon => some { q with longitude := value, state := .pointDelim }
      | .pointLat => some { q with latitude := value, state := .pointEnd }
      | _ => none
  | .comma =>
      match q.state with
      | .pointDelim => some { q with state := .pointLat }
      | .loopDelim => some { q with state := .pointStart }
      | .polygonDelim => some { q with state := .loopStart }
      | _ => none
  | .closing =>
      match q.state with
      | .pointEnd =>
          some { q with points := q.points ++ [(q.longitude, q.latitude)], state := .loopDelim }
      | .loopDelim =>
          if q.points.length < 4 then none
          else some { q with rings := q.rings ++ [q.points], points := [], state := .polygonDelim }
      | .polygonDelim => some { q with state := .eol }
      | _ => none

/-- The limit that a state has reached, which shows at its next opening bracket. -/
def polygonLimit (q : PolygonState V) : Option Int :=
  match q.state with
  | .loopStart => if loopLimit ≤ q.rings.length then some parseErrLoopLimit else none
  | .pointStart => if pointLimit ≤ q.points.length then some pointLimit else none
  | _ => none

/-- The first state. -/
def polygonStart (value : V) : PolygonState V := ⟨.polygonStart, [], [], value, value⟩

/-- The transitions of the machine. -/
inductive PolygonMove : PolygonState V → Token V → PolygonState V → Prop
  | openPolygon (rings points longitude latitude) :
      PolygonMove ⟨.polygonStart, rings, points, longitude, latitude⟩ .opening
        ⟨.loopStart, rings, points, longitude, latitude⟩
  | openRing (rings points longitude latitude) :
      PolygonMove ⟨.loopStart, rings, points, longitude, latitude⟩ .opening
        ⟨.pointStart, rings, points, longitude, latitude⟩
  | openPoint (rings points longitude latitude) :
      PolygonMove ⟨.pointStart, rings, points, longitude, latitude⟩ .opening
        ⟨.pointLon, rings, points, longitude, latitude⟩
  | readLongitude (rings points longitude latitude value) :
      PolygonMove ⟨.pointLon, rings, points, longitude, latitude⟩ (.number value)
        ⟨.pointDelim, rings, points, value, latitude⟩
  | betweenCoordinates (rings points longitude latitude) :
      PolygonMove ⟨.pointDelim, rings, points, longitude, latitude⟩ .comma
        ⟨.pointLat, rings, points, longitude, latitude⟩
  | readLatitude (rings points longitude latitude value) :
      PolygonMove ⟨.pointLat, rings, points, longitude, latitude⟩ (.number value)
        ⟨.pointEnd, rings, points, longitude, value⟩
  | closePoint (rings points longitude latitude) :
      PolygonMove ⟨.pointEnd, rings, points, longitude, latitude⟩ .closing
        ⟨.loopDelim, rings, points ++ [(longitude, latitude)], longitude, latitude⟩
  | nextPoint (rings points longitude latitude) :
      PolygonMove ⟨.loopDelim, rings, points, longitude, latitude⟩ .comma
        ⟨.pointStart, rings, points, longitude, latitude⟩
  | closeRing (rings points longitude latitude) (h : 4 ≤ points.length) :
      PolygonMove ⟨.loopDelim, rings, points, longitude, latitude⟩ .closing
        ⟨.polygonDelim, rings ++ [points], [], longitude, latitude⟩
  | nextRing (rings points longitude latitude) :
      PolygonMove ⟨.polygonDelim, rings, points, longitude, latitude⟩ .comma
        ⟨.loopStart, rings, points, longitude, latitude⟩
  | closePolygon (rings points longitude latitude) :
      PolygonMove ⟨.polygonDelim, rings, points, longitude, latitude⟩ .closing
        ⟨.eol, rings, points, longitude, latitude⟩

theorem polygonStep_eq_some_iff {q q' : PolygonState V} {t : Token V} :
    polygonStep q t = some q' ↔ PolygonMove q t q' := by
  constructor
  · intro h
    obtain ⟨state, rings, points, longitude, latitude⟩ := q
    cases t <;> cases state <;> simp only [polygonStep, reduceCtorEq, Option.some.injEq,
      Option.ite_none_left_eq_some, Nat.not_lt] at h
    all_goals first
      | subst h; constructor
      | obtain ⟨hlen, rfl⟩ := h; exact .closeRing _ _ _ _ hlen
  · intro h
    cases h with
    | closeRing _ _ _ _ h => simp [polygonStep, h]
    | _ => rfl

/-! ### The tokens that lead to a state -/

/-- The tokens read so far. -/
def polygonSpell (q : PolygonState V) : List (Token V) :=
  let rings := .opening :: followed (q.rings.map ringTokens)
  let points := rings ++ .opening :: followed (q.points.map pointTokens)
  match q.state with
  | .polygonStart => []
  | .loopStart => rings
  | .pointStart => points
  | .pointLon => points ++ [.opening]
  | .pointDelim => points ++ [.opening, .number q.longitude]
  | .pointLat => points ++ [.opening, .number q.longitude, .comma]
  | .pointEnd => points ++ [.opening, .number q.longitude, .comma, .number q.latitude]
  | .loopDelim => rings ++ .opening :: separated (q.points.map pointTokens)
  | .polygonDelim => .opening :: separated (q.rings.map ringTokens)
  | .eol => polygonTokens q.rings

/-- What the machine never violates. -/
def PolygonValid (q : PolygonState V) : Prop :=
  (∀ ring ∈ q.rings, 4 ≤ ring.length) ∧
    match q.state with
    | .polygonStart => q.rings = [] ∧ q.points = []
    | .loopStart => q.points = []
    | .loopDelim => q.points ≠ []
    | .polygonDelim => q.rings ≠ [] ∧ q.points = []
    | .eol => q.rings ≠ [] ∧ q.points = []
    | _ => True

theorem PolygonMove.valid {q q' : PolygonState V} {t : Token V} (h : PolygonMove q t q')
    (hq : PolygonValid q) : PolygonValid q' := by
  obtain ⟨hrings, hstate⟩ := hq
  cases h with
  | openPolygon => exact ⟨hrings, hstate.2⟩
  | closePoint => exact ⟨hrings, by simp⟩
  | closeRing rings points _ _ h =>
      refine ⟨?_, by simp, rfl⟩
      intro ring hring
      rcases List.mem_append.mp hring with hring | hring
      · exact hrings ring hring
      · obtain rfl := List.mem_singleton.mp hring
        exact h
  | nextRing => exact ⟨hrings, hstate.2⟩
  | closePolygon => exact ⟨hrings, hstate⟩
  | _ => exact ⟨hrings, trivial⟩

/-- A transition adds its token to what has been read. -/
theorem PolygonMove.spell {q q' : PolygonState V} {t : Token V} (h : PolygonMove q t q')
    (hq : PolygonValid q) : polygonSpell q' = polygonSpell q ++ [t] := by
  obtain ⟨-, hstate⟩ := hq
  cases h with
  | openPolygon rings points =>
      obtain ⟨hrings, -⟩ : rings = [] ∧ points = [] := hstate
      simp [polygonSpell, hrings, followed]
  | openRing rings points =>
      have hpoints : points = [] := hstate
      simp [polygonSpell, hpoints, followed]
  | closePoint => simp [polygonSpell, separated_concat, pointTokens]
  | nextPoint rings points =>
      have hpoints : points.map pointTokens ≠ [] := by simpa using hstate
      simp [polygonSpell, ← separated_comma hpoints]
  | closeRing => simp [polygonSpell, separated_concat, ringTokens]
  | nextRing rings =>
      have hrings : rings.map ringTokens ≠ [] := by simpa using hstate.1
      simp [polygonSpell, ← separated_comma hrings]
  | _ => simp [polygonSpell, polygonTokens]

/-! ### Completing a state -/

theorem legal_of_move {q q' : PolygonState V} {t : Token V} (hq : PolygonValid q)
    (h : PolygonMove q t q') (hlegal : LegalPrefix PolygonSentence (polygonSpell q')) :
    LegalPrefix PolygonSentence (polygonSpell q) := by
  rw [h.spell hq] at hlegal
  exact hlegal.of_append

section Completion
variable {rings : List (List (V × V))} {points : List (V × V)} {longitude latitude : V}

theorem legal_eol (hq : PolygonValid ⟨.eol, rings, points, longitude, latitude⟩) :
    LegalPrefix PolygonSentence (polygonSpell ⟨.eol, rings, points, longitude, latitude⟩) := by
  obtain ⟨hlen, hne, -⟩ := hq
  refine ⟨[], rings, hne, hlen, ?_⟩
  simp [polygonSpell]

theorem legal_polygonDelim (hq : PolygonValid ⟨.polygonDelim, rings, points, longitude, latitude⟩) :
    LegalPrefix PolygonSentence
      (polygonSpell ⟨.polygonDelim, rings, points, longitude, latitude⟩) := by
  have hmove := PolygonMove.closePolygon rings points longitude latitude
  exact legal_of_move hq hmove (legal_eol (hmove.valid hq))

/-- Inside a point the rest of the point follows. -/
theorem legal_pointEnd
    (hdelim : ∀ longitude latitude, LegalPrefix PolygonSentence (polygonSpell
      ⟨.loopDelim, rings, points ++ [(longitude, latitude)], longitude, latitude⟩))
    (hrings : ∀ ring ∈ rings, 4 ≤ ring.length) :
    LegalPrefix PolygonSentence (polygonSpell ⟨.pointEnd, rings, points, longitude, latitude⟩) :=
  legal_of_move ⟨hrings, trivial⟩ (.closePoint rings points longitude latitude) (hdelim _ _)

theorem legal_pointStart
    (hdelim : ∀ longitude latitude, LegalPrefix PolygonSentence (polygonSpell
      ⟨.loopDelim, rings, points ++ [(longitude, latitude)], longitude, latitude⟩))
    (hrings : ∀ ring ∈ rings, 4 ≤ ring.length) :
    LegalPrefix PolygonSentence
      (polygonSpell ⟨.pointStart, rings, points, longitude, latitude⟩) := by
  apply legal_of_move ⟨hrings, trivial⟩ (.openPoint rings points longitude latitude)
  apply legal_of_move ⟨hrings, trivial⟩ (.readLongitude rings points longitude latitude longitude)
  apply legal_of_move ⟨hrings, trivial⟩ (.betweenCoordinates rings points longitude latitude)
  apply legal_of_move ⟨hrings, trivial⟩ (.readLatitude rings points longitude latitude latitude)
  exact legal_pointEnd hdelim hrings

/-- A ring with too few points gets more of them before it is closed. -/
theorem legal_loopDelim (hq : PolygonValid ⟨.loopDelim, rings, points, longitude, latitude⟩) :
    LegalPrefix PolygonSentence
      (polygonSpell ⟨.loopDelim, rings, points, longitude, latitude⟩) := by
  obtain ⟨n, hn⟩ : ∃ n, 4 ≤ points.length + n := ⟨4, by omega⟩
  induction n generalizing points longitude latitude with
  | zero =>
      have hmove := PolygonMove.closeRing rings points longitude latitude hn
      exact legal_of_move hq hmove (legal_polygonDelim (hmove.valid hq))
  | succ n ih =>
      have hmove := PolygonMove.nextPoint rings points longitude latitude
      apply legal_of_move hq hmove
      apply legal_pointStart _ hq.1
      intro lon lat
      have hvalid : PolygonValid ⟨.loopDelim, rings, points ++ [(lon, lat)], lon, lat⟩ :=
        ⟨hq.1, by simp⟩
      apply ih hvalid
      rw [List.length_append, List.length_singleton]
      omega

end Completion

theorem PolygonValid.legal {q : PolygonState V} (hq : PolygonValid q) :
    LegalPrefix PolygonSentence (polygonSpell q) := by
  obtain ⟨state, rings, points, longitude, latitude⟩ := q
  have hrings : ∀ ring ∈ rings, 4 ≤ ring.length := hq.1
  have hdelim : ∀ longitude latitude, LegalPrefix PolygonSentence (polygonSpell
      ⟨.loopDelim, rings, points ++ [(longitude, latitude)], longitude, latitude⟩) :=
    fun longitude latitude => legal_loopDelim ⟨hrings, by simp⟩
  cases state with
  | polygonStart =>
      have hmove := PolygonMove.openPolygon rings points longitude latitude
      apply legal_of_move hq hmove
      apply legal_of_move (hmove.valid hq) (.openRing rings points longitude latitude)
      exact legal_pointStart hdelim hrings
  | loopStart =>
      apply legal_of_move hq (.openRing rings points longitude latitude)
      exact legal_pointStart hdelim hrings
  | pointStart => exact legal_pointStart hdelim hrings
  | pointLon =>
      apply legal_of_move hq (.readLongitude rings points longitude latitude longitude)
      apply legal_of_move ⟨hrings, trivial⟩ (.betweenCoordinates rings points longitude latitude)
      apply legal_of_move ⟨hrings, trivial⟩ (.readLatitude rings points longitude latitude latitude)
      exact legal_pointEnd hdelim hrings
  | pointDelim =>
      apply legal_of_move hq (.betweenCoordinates rings points longitude latitude)
      apply legal_of_move ⟨hrings, trivial⟩ (.readLatitude rings points longitude latitude latitude)
      exact legal_pointEnd hdelim hrings
  | pointLat =>
      apply legal_of_move hq (.readLatitude rings points longitude latitude latitude)
      exact legal_pointEnd hdelim hrings
  | pointEnd => exact legal_pointEnd hdelim hrings
  | loopDelim => exact legal_loopDelim hq
  | polygonDelim => exact legal_polygonDelim hq
  | eol => exact legal_eol hq

/-! ### Reading sentences -/

section Sentences
variable {ε : Type} {limit : PolygonState V → Option ε} {pointBound ringBound : Nat}
variable (rings new : List (List (V × V))) (points more : List (V × V))

/-- The limits stop no ring and no point below two bounds. -/
structure Allows (limit : PolygonState V → Option ε) (pointBound ringBound : Nat) : Prop where
  ring : ∀ q, q.state = .loopStart → q.rings.length < ringBound → limit q = none
  point : ∀ q, q.state = .pointStart → q.points.length < pointBound → limit q = none
  other : ∀ q, q.state ≠ .loopStart → q.state ≠ .pointStart → limit q = none

theorem Allows.move (h : Allows limit pointBound ringBound) {q q' : PolygonState V} {t : Token V}
    (hm : PolygonMove q t q') (hr : q.state = .loopStart → q.rings.length < ringBound)
    (hp : q.state = .pointStart → q.points.length < pointBound) :
    capped limit polygonStep q t = some q' := by
  refine capped_eq_some_iff.mpr ⟨?_, polygonStep_eq_some_iff.mpr hm⟩
  by_cases hring : q.state = .loopStart
  · exact h.ring q hring (hr hring)
  · by_cases hpoint : q.state = .pointStart
    · exact h.point q hpoint (hp hpoint)
    · exact h.other q hring hpoint

theorem Allows.run_point (h : Allows limit pointBound ringBound) (point : V × V)
    (longitude latitude : V) (hlen : points.length < pointBound) :
    runTokens (capped limit polygonStep) ⟨.pointStart, rings, points, longitude, latitude⟩
      (pointTokens point) =
        some ⟨.loopDelim, rings, points ++ [point], point.1, point.2⟩ := by
  have hopen := h.move (.openPoint rings points longitude latitude) (by simp) (fun _ => hlen)
  have hlon := h.move (.readLongitude rings points longitude latitude point.1) (by simp) (by simp)
  have hcomma := h.move (.betweenCoordinates rings points point.1 latitude) (by simp) (by simp)
  have hlat := h.move (.readLatitude rings points point.1 latitude point.2) (by simp) (by simp)
  have hclose := h.move (.closePoint rings points point.1 point.2) (by simp) (by simp)
  simp [pointTokens, hopen, hlon, hcomma, hlat, hclose]

theorem Allows.run_followed_points (h : Allows limit pointBound ringBound) (longitude latitude : V)
    (hlen : points.length + more.length ≤ pointBound) :
    ∃ longitude' latitude', runTokens (capped limit polygonStep)
      ⟨.pointStart, rings, points, longitude, latitude⟩ (followed (more.map pointTokens)) =
        some ⟨.pointStart, rings, points ++ more, longitude', latitude'⟩ := by
  induction more generalizing points longitude latitude with
  | nil => exact ⟨longitude, latitude, by simp [followed]⟩
  | cons point more ih =>
      rw [List.length_cons] at hlen
      have hpoint := h.run_point rings points point longitude latitude (by omega)
      have hcomma := h.move (.nextPoint rings (points ++ [point]) point.1 point.2)
        (by simp) (by simp)
      obtain ⟨longitude', latitude', hrest⟩ := ih (points ++ [point]) point.1 point.2
        (by rw [List.length_append, List.length_singleton]; omega)
      refine ⟨longitude', latitude', ?_⟩
      simp only [followed, List.map_cons, List.flatMap_cons, runTokens_append, hpoint] at hrest ⊢
      simpa [hcomma] using hrest

theorem Allows.run_points (h : Allows limit pointBound ringBound) (longitude latitude : V)
    (hne : more ≠ []) (hlen : points.length + more.length ≤ pointBound) :
    ∃ longitude' latitude', runTokens (capped limit polygonStep)
      ⟨.pointStart, rings, points, longitude, latitude⟩ (separated (more.map pointTokens)) =
        some ⟨.loopDelim, rings, points ++ more, longitude', latitude'⟩ := by
  obtain ⟨init, last, rfl⟩ := (List.eq_nil_or_concat' more).resolve_left hne
  rw [List.length_append, List.length_singleton] at hlen
  obtain ⟨lon, lat, hinit⟩ := h.run_followed_points rings points init longitude latitude
    (by omega)
  have hlast := h.run_point rings (points ++ init) last lon lat
    (by rw [List.length_append]; omega)
  refine ⟨last.1, last.2, ?_⟩
  rw [List.map_append, List.map_singleton, separated_concat, runTokens_append, hinit]
  simpa using hlast

/-- A ring of enough points adds itself to the rings. -/
theorem Allows.run_ring (ring : List (V × V)) (h : Allows limit pointBound ringBound)
    (longitude latitude : V) (hrings : rings.length < ringBound) (hmin : 4 ≤ ring.length)
    (hmax : ring.length ≤ pointBound) :
    ∃ longitude' latitude', runTokens (capped limit polygonStep)
      ⟨.loopStart, rings, [], longitude, latitude⟩ (ringTokens ring) =
        some ⟨.polygonDelim, rings ++ [ring], [], longitude', latitude'⟩ := by
  have hne : ring ≠ [] := by
    rintro rfl
    simp at hmin
  have hopen := h.move (.openRing rings [] longitude latitude) (fun _ => hrings) (by simp)
  obtain ⟨lon, lat, hpoints⟩ := h.run_points rings [] ring longitude latitude hne
    (by rw [List.length_nil]; omega)
  have hclose := h.move (.closeRing rings ring lon lat hmin) (by simp) (by simp)
  refine ⟨lon, lat, ?_⟩
  rw [List.nil_append] at hpoints
  simp [ringTokens, runTokens_append, hopen, hpoints, hclose]

theorem Allows.run_followed_rings (h : Allows limit pointBound ringBound) (longitude latitude : V)
    (hlen : rings.length + new.length ≤ ringBound)
    (hnew : ∀ ring ∈ new, 4 ≤ ring.length ∧ ring.length ≤ pointBound) :
    ∃ longitude' latitude', runTokens (capped limit polygonStep)
      ⟨.loopStart, rings, [], longitude, latitude⟩ (followed (new.map ringTokens)) =
        some ⟨.loopStart, rings ++ new, [], longitude', latitude'⟩ := by
  induction new generalizing rings longitude latitude with
  | nil => exact ⟨longitude, latitude, by simp [followed]⟩
  | cons ring new ih =>
      rw [List.length_cons] at hlen
      obtain ⟨hmin, hmax⟩ := hnew ring (by simp)
      obtain ⟨lon, lat, hring⟩ := h.run_ring rings ring longitude latitude (by omega)
        hmin hmax
      have hcomma := h.move (.nextRing (rings ++ [ring]) [] lon lat) (by simp) (by simp)
      obtain ⟨longitude', latitude', hrest⟩ := ih (rings ++ [ring]) lon lat
        (by rw [List.length_append, List.length_singleton]; omega)
        (fun other hother => hnew other (List.mem_cons_of_mem _ hother))
      refine ⟨longitude', latitude', ?_⟩
      simp only [followed, List.map_cons, List.flatMap_cons, runTokens_append, hring] at hrest ⊢
      simpa [hcomma] using hrest

/-- The opening of a ring, after any rings. -/
theorem Allows.run_rings (h : Allows limit pointBound ringBound) (value : V)
    (hlen : rings.length ≤ ringBound)
    (hrings : ∀ ring ∈ rings, 4 ≤ ring.length ∧ ring.length ≤ pointBound) :
    ∃ longitude latitude, runTokens (capped limit polygonStep) (polygonStart value)
      (.opening :: followed (rings.map ringTokens)) =
        some ⟨.loopStart, rings, [], longitude, latitude⟩ := by
  have hopen := h.move (.openPolygon [] [] value value) (by simp) (by simp)
  obtain ⟨longitude, latitude, hrest⟩ := h.run_followed_rings [] rings value value
    (by rw [List.length_nil]; omega) hrings
  refine ⟨longitude, latitude, ?_⟩
  simpa [polygonStart, hopen] using hrest

theorem Allows.run_polygon (h : Allows limit pointBound ringBound) (value : V) (hne : rings ≠ [])
    (hlen : rings.length ≤ ringBound)
    (hrings : ∀ ring ∈ rings, 4 ≤ ring.length ∧ ring.length ≤ pointBound) :
    ∃ longitude latitude, runTokens (capped limit polygonStep) (polygonStart value)
      (polygonTokens rings) = some ⟨.eol, rings, [], longitude, latitude⟩ := by
  obtain ⟨init, last, rfl⟩ := (List.eq_nil_or_concat' rings).resolve_left hne
  rw [List.length_append, List.length_singleton] at hlen
  have hinit : ∀ ring ∈ init, 4 ≤ ring.length ∧ ring.length ≤ pointBound :=
    fun ring hring => hrings ring (by simp [hring])
  obtain ⟨hmin, hmax⟩ := hrings last (by simp)
  obtain ⟨lon, lat, hopen⟩ := h.run_rings init value (by omega) hinit
  obtain ⟨lon', lat', hring⟩ := h.run_ring init last lon lat (by omega) hmin hmax
  have hclose := h.move (.closePolygon (init ++ [last]) [] lon' lat') (by simp) (by simp)
  refine ⟨lon', lat', ?_⟩
  have htokens : polygonTokens (init ++ [last]) =
      (.opening :: followed (init.map ringTokens)) ++ (ringTokens last ++ [.closing]) := by
    simp [polygonTokens, separated_concat]
  rw [htokens, runTokens_append, hopen]
  simp [runTokens_append, hring, hclose]

end Sentences

/-- The two brackets before the first point. -/
theorem Allows.run_brackets {ε : Type} {limit : PolygonState V → Option ε}
    {pointBound ringBound : Nat} (h : Allows limit pointBound ringBound) (value : V)
    (hpos : 0 < ringBound) :
    runTokens (capped limit polygonStep) (polygonStart value) [.opening, .opening] =
      some ⟨.pointStart, [], [], value, value⟩ := by
  have hopen := h.move (.openPolygon [] [] value value) (by simp) (by simp)
  have hring := h.move (.openRing [] [] value value) (fun _ => hpos) (by simp)
  simp [polygonStart, hopen, hring]

theorem allows_of_eq_none {ε : Type} {limit : PolygonState V → Option ε}
    (h : ∀ q, limit q = none) (pointBound ringBound : Nat) :
    Allows limit pointBound ringBound :=
  ⟨fun q _ _ => h q, fun q _ _ => h q, fun q _ _ => h q⟩

/-- The number of all points bounds the points of each ring. -/
theorem ring_bounds {rings : List (List (V × V))} (hmin : ∀ ring ∈ rings, 4 ≤ ring.length) :
    ∀ ring ∈ rings, 4 ≤ ring.length ∧ ring.length ≤ rings.flatten.length := by
  intro ring hring
  exact ⟨hmin ring hring, (List.sublist_flatten_of_mem hring).length_le⟩

/-- Without limits the machine gets to the opening of any ring. -/
theorem run_loopStart (value : V) (rings : List (List (V × V)))
    (hmin : ∀ ring ∈ rings, 4 ≤ ring.length) :
    ∃ longitude latitude, runTokens polygonStep (polygonStart value)
      (.opening :: followed (rings.map ringTokens)) =
        some ⟨.loopStart, rings, [], longitude, latitude⟩ := by
  have hallows := allows_of_eq_none (V := V) (ε := Int) (fun _ => rfl)
    rings.flatten.length rings.length
  exact hallows.run_rings rings value le_rfl (ring_bounds hmin)

/-- Without limits the machine gets to the opening of any point. -/
theorem run_pointStart (value : V) (rings : List (List (V × V)))
    (hmin : ∀ ring ∈ rings, 4 ≤ ring.length) (points : List (V × V)) :
    ∃ longitude latitude, runTokens polygonStep (polygonStart value)
      (.opening :: followed (rings.map ringTokens) ++
        .opening :: followed (points.map pointTokens)) =
        some ⟨.pointStart, rings, points, longitude, latitude⟩ := by
  have hallows := allows_of_eq_none (V := V) (ε := Int) (fun _ => rfl)
    points.length (rings.length + 1)
  obtain ⟨lon, lat, hrings⟩ := run_loopStart value rings hmin
  have hopen := polygonStep_eq_some_iff.mpr (.openRing rings [] lon lat)
  obtain ⟨longitude, latitude, hpoints⟩ := hallows.run_followed_points rings [] points lon lat
    (by simp)
  have hpoints := run_of_capped hpoints
  refine ⟨longitude, latitude, ?_⟩
  rw [runTokens_append, hrings]
  simpa [hopen] using hpoints

/-- The limits of the parser. -/
theorem allows_polygonLimit : Allows (V := V) polygonLimit pointLimit loopLimit where
  ring q hq hlen := by simp [polygonLimit, hq, Nat.not_le.mpr hlen]
  point q hq hlen := by simp [polygonLimit, hq, Nat.not_le.mpr hlen]
  other q hring hpoint := by
    obtain ⟨state, rings, points, longitude, latitude⟩ := q
    cases state <;> simp_all [polygonLimit]

/-- The machine without limits reads the prefixes of polygons. -/
def polygonRecognizer (value : V) :
    Recognizer polygonStep (polygonStart value) PolygonSentence where
  Valid := PolygonValid
  spell := polygonSpell
  valid_start := ⟨by simp [polygonStart], rfl, rfl⟩
  spell_start := rfl
  valid_step hq h := (polygonStep_eq_some_iff.mp h).valid hq
  spell_step hq h := (polygonStep_eq_some_iff.mp h).spell hq
  legal hq := hq.legal
  accepts := by
    rintro ts ⟨rings, hne, hmin, rfl⟩
    have hallows := allows_of_eq_none (V := V) (ε := Int) (fun _ => rfl)
      rings.flatten.length rings.length
    obtain ⟨longitude, latitude, hrun⟩ :=
      hallows.run_polygon rings value hne le_rfl (ring_bounds hmin)
    exact ⟨_, hrun⟩

/-- The last bracket of a polygon ends it. -/
theorem prefixFree_polygonSentence (value : V) : PrefixFree (PolygonSentence (V := V)) := by
  apply (polygonRecognizer value).prefixFree
  rintro ts q ⟨rings, hne, hmin, rfl⟩ hrun t
  have hallows := allows_of_eq_none (V := V) (ε := Int) (fun _ => rfl)
    rings.flatten.length rings.length
  obtain ⟨longitude, latitude, heol⟩ :=
    hallows.run_polygon rings value hne le_rfl (ring_bounds hmin)
  obtain rfl : _ = q := Option.some.inj ((run_of_capped heol).symm.trans hrun)
  cases t <;> rfl

end RedisS2Geo.Text
