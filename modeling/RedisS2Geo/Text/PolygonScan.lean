import RedisS2Geo.Text.PolygonMachine
import RedisS2Geo.Text.Scans

/-!
# What `ParseS2Polygon` returns

The loop of the parser scans by the polygon machine below the two limits, so that its
result is told by the tokens that can be read.
-/

namespace RedisS2Geo.Text
open Foundation Source
variable (env : Environment)

/-- The vertex pushed for a point. -/
def vertex (point : env.Double × env.Double) : env.Point :=
  env.toPoint (env.fromDegrees point.2 point.1)

/-- The loop made of a ring. -/
def loopOf (ring : List (env.Double × env.Double)) : S2Loop env.Point :=
  dropClosing env (ring.map (vertex env))

/-- The local variables of the parser in a state of the machine. -/
def polygonScan (q : PolygonState env.Double) (i : Nat) : PolygonScan env where
  state := q.state
  i := i
  pointCount := q.points.length
  loopCount := q.rings.length
  latitude := q.latitude
  longitude := q.longitude
  vertices := q.points.map (vertex env)
  loops := q.rings.map (loopOf env)

variable {env}

/-- A round away from spaces moves the machine by the token at its position. -/
theorem polygonRound_eq {body : Bytes} {i : Nat} (hc : charAt body i ≠ chr ' ')
    (q : PolygonState env.Double) :
    polygonRound env body (polygonScan env q i) =
      respond polygonStep polygonLimit errorAt (polygonScan env) q i
        (lexToken env (body.drop i)) := by
  have T := tests_of_ne_space env hc
  obtain ⟨state, rings, points, longitude, latitude⟩ := q
  cases hread : lexToken env (body.drop i) with
  | none =>
      rw [hread] at T
      cases state <;> simp [polygonRound, polygonScan, respond, T.space, T.opening, T.comma,
        T.closing, T.number]
  | some read =>
      obtain ⟨t, n⟩ := read
      have hn := lexToken_length hread
      rw [hread] at T
      cases t with
      | opening =>
          obtain rfl : n = 1 := by simpa using hn
          cases state with
          | loopStart =>
              by_cases hfull : loopLimit ≤ rings.length <;>
                simp [polygonRound, polygonScan, respond, polygonStep, polygonLimit, T.space,
                  T.opening, hfull]
          | pointStart =>
              by_cases hfull : pointLimit ≤ points.length <;>
                simp [polygonRound, polygonScan, respond, polygonStep, polygonLimit, T.space,
                  T.opening, hfull]
          | _ =>
              simp [polygonRound, polygonScan, respond, polygonStep, polygonLimit, T.space,
                T.opening, T.comma, T.closing, T.number]
      | comma =>
          obtain rfl : n = 1 := by simpa using hn
          cases state <;>
            simp [polygonRound, polygonScan, respond, polygonStep, polygonLimit, T.space,
              T.opening, T.comma, T.closing, T.number]
      | closing =>
          obtain rfl : n = 1 := by simpa using hn
          cases state with
          | loopDelim =>
              by_cases hshort : points.length < 4 <;>
                simp [polygonRound, polygonScan, respond, polygonStep, polygonLimit, T.space,
                  T.comma, T.closing, hshort, loopOf]
          | _ =>
              simp [polygonRound, polygonScan, respond, polygonStep, polygonLimit, T.space,
                T.opening, T.comma, T.closing, T.number, vertex]
      | number value =>
          cases state <;>
            simp [polygonRound, polygonScan, respond, polygonStep, polygonLimit, T.space,
              T.opening, T.comma, T.closing, T.number]

theorem polygon_scansBy {body : Bytes} (hbody : NulFree body) :
    ScansBy (lexer env) polygonStep polygonLimit errorAt body
      (fun s => charAt body (PolygonScan.i s) != 0) (polygonRound env body) (polygonScan env) := by
  apply scansBy_of_round hbody
  · intro q i
    rfl
  · intro q i hc
    simp [polygonRound, polygonScan, hc]
  · intro q i hc
    exact polygonRound_eq hc q

/-! ### Below the limits -/

/-- What the machine below the limits keeps besides. -/
def PolygonBelow {V : Type} (q : PolygonState V) : Prop :=
  (∀ ring ∈ q.rings, ring.length ≤ pointLimit) ∧
    match q.state with
    | .polygonStart => q.rings = []
    | .pointStart | .loopDelim => q.rings = [] ∧ q.points.length ≤ pointLimit
    | .pointLon | .pointDelim | .pointLat | .pointEnd =>
        q.rings = [] ∧ q.points.length < pointLimit
    | .loopStart | .polygonDelim | .eol => q.rings.length ≤ loopLimit

theorem PolygonMove.below {V : Type} {q q' : PolygonState V} {t : Token V}
    (h : PolygonMove q t q') (hlimit : polygonLimit q = none) (hq : PolygonValid q)
    (hbelow : PolygonBelow q) : PolygonBelow q' := by
  obtain ⟨hrings, hstate⟩ := hbelow
  cases h with
  | openPolygon rings points =>
      have hnil : rings = [] := hstate
      exact ⟨hrings, by simp [hnil]⟩
  | openRing rings points =>
      have hnil : points = [] := hq.2
      have hlen : rings.length < loopLimit := by simpa [polygonLimit] using hlimit
      exact ⟨hrings, List.length_eq_zero_iff.mp (Nat.lt_one_iff.mp hlen), by simp [hnil]⟩
  | openPoint rings points =>
      have hlen : points.length < pointLimit := by simpa [polygonLimit] using hlimit
      exact ⟨hrings, hstate.1, hlen⟩
  | closePoint rings points =>
      refine ⟨hrings, hstate.1, ?_⟩
      rw [List.length_append, List.length_singleton]
      exact hstate.2
  | closeRing rings points =>
      obtain ⟨hnil, hlen⟩ : rings = [] ∧ points.length ≤ pointLimit := hstate
      exact ⟨by simpa [hnil] using hlen, by simp [hnil, loopLimit]⟩
  | _ => exact ⟨hrings, hstate⟩

/-- What holds of every state that the parser gets to. -/
theorem polygon_run {V : Type} {value : V} {q : PolygonState V} {ts : List (Token V)}
    (h : runTokens (capped polygonLimit polygonStep) (polygonStart value) ts = some q) :
    polygonSpell q = ts ∧ PolygonValid q ∧ PolygonBelow q := by
  have hspell := (polygonRecognizer value).spell_eq (run_of_capped h)
  have hinv : PolygonValid q ∧ PolygonBelow q := by
    apply runTokens_invariant (fun q => PolygonValid q ∧ PolygonBelow q) _ _ h
    · rintro q t q' ⟨hvalid, hbelow⟩ hstep
      obtain ⟨hlimit, hmove⟩ := capped_eq_some_iff.mp hstep
      have hmove := polygonStep_eq_some_iff.mp hmove
      exact ⟨hmove.valid hvalid, hmove.below hlimit hvalid hbelow⟩
    · exact ⟨(polygonRecognizer value).valid_start, by simp [polygonStart], rfl⟩
  exact ⟨hspell, hinv⟩

/-! ### The results of the parser -/

section Results
variable {body : Bytes} {out : Option (S2Polygon env.Point)}

theorem polygonLoop_eq_ok_iff (hbody : NulFree body) {s : PolygonScan env} :
    boundedLoop (fun s => charAt body s.i != 0) (polygonRound env body) body.length
        (polygonInit env) = .ok s ↔
      ∃ ts j q, s = polygonScan env q j ∧ Reads (lexer env) body 0 ts j ∧
        runTokens (capped polygonLimit polygonStep) (polygonStart env.indeterminate) ts = some q ∧
          body.length ≤ j :=
  loop_eq_ok_iff (polygon_scansBy hbody) (fun _ _ => polygonRound_lt)
    (q := polygonStart env.indeterminate)

theorem polygonLoop_eq_error_iff (hbody : NulFree body) {e : Int} :
    boundedLoop (fun s => charAt body s.i != 0) (polygonRound env body) body.length
        (polygonInit env) = .error e ↔
      ∃ ts j q, Reads (lexer env) body 0 ts j ∧
        runTokens (capped polygonLimit polygonStep) (polygonStart env.indeterminate) ts = some q ∧
          Halts (lexer env) polygonStep polygonLimit errorAt body q j e :=
  loop_eq_error_iff (polygon_scansBy hbody) (fun _ _ => polygonRound_lt)
    (q := polygonStart env.indeterminate)

/-- The parser ends where the text does or returns early. -/
theorem parseS2Polygon_cases (hbody : NulFree body) (out : Option (S2Polygon env.Point)) :
    ∃ ts j q, Reads (lexer env) body 0 ts j ∧
      runTokens (capped polygonLimit polygonStep) (polygonStart env.indeterminate) ts = some q ∧
        ((body.length ≤ j ∧ q.state = .eol ∧
            parseS2Polygon env (some body) out = (0, some ⟨q.rings.map (loopOf env)⟩)) ∨
          (body.length ≤ j ∧ q.state ≠ .eol ∧
            parseS2Polygon env (some body) out = (errorAt j, none)) ∨
          ∃ e, Halts (lexer env) polygonStep polygonLimit errorAt body q j e ∧
            parseS2Polygon env (some body) out = (e, none)) := by
  cases hloop : boundedLoop (fun s => charAt body s.i != 0) (polygonRound env body) body.length
      (polygonInit env) with
  | error e =>
      obtain ⟨ts, j, q, hread, hrun, hhalts⟩ := (polygonLoop_eq_error_iff hbody).mp hloop
      exact ⟨ts, j, q, hread, hrun, Or.inr (Or.inr ⟨e, hhalts, by simp [parseS2Polygon, hloop]⟩)⟩
  | ok s =>
      obtain ⟨ts, j, q, rfl, hread, hrun, hj⟩ := (polygonLoop_eq_ok_iff hbody).mp hloop
      refine ⟨ts, j, q, hread, hrun, ?_⟩
      by_cases hstate : q.state = .eol
      · refine Or.inl ⟨hj, hstate, ?_⟩
        obtain ⟨-, hvalid, -⟩ := polygon_run hrun
        have hrings : q.rings ≠ [] := by
          have := hvalid.2
          rw [hstate] at this
          exact this.1
        simp [parseS2Polygon, hloop, polygonScan, hstate, hrings]
      · exact Or.inr (Or.inl ⟨hj, hstate, by simp [parseS2Polygon, hloop, polygonScan, hstate]⟩)

/-- What the parser returns early. -/
theorem parseS2Polygon_of_halts (hbody : NulFree body) {ts : List (Token env.Double)} {j : Nat}
    {q : PolygonState env.Double} {e : Int} (hread : Reads (lexer env) body 0 ts j)
    (hrun : runTokens (capped polygonLimit polygonStep) (polygonStart env.indeterminate) ts =
      some q)
    (hhalts : Halts (lexer env) polygonStep polygonLimit errorAt body q j e) :
    parseS2Polygon env (some body) out = (e, none) := by
  have hloop := (polygonLoop_eq_error_iff hbody).mpr ⟨ts, j, q, hread, hrun, hhalts⟩
  simp [parseS2Polygon, hloop]

/-- A body that is one ring of points. -/
structure PolygonText (env : Environment) (body : Bytes)
    (points : List (env.Double × env.Double)) : Prop where
  min : 4 ≤ points.length
  max : points.length ≤ 64
  spells : Spells (lexer env) body (polygonTokens [points])

variable {points : List (env.Double × env.Double)}

theorem PolygonText.run (h : PolygonText env body points) :
    ∃ longitude latitude, runTokens (capped polygonLimit polygonStep)
      (polygonStart env.indeterminate) (polygonTokens [points]) =
        some ⟨.eol, [points], [], longitude, latitude⟩ := by
  apply allows_polygonLimit.run_polygon [points] env.indeterminate (by simp) (by simp [loopLimit])
  intro ring hring
  obtain rfl := List.mem_singleton.mp hring
  exact ⟨h.min, h.max⟩

/-- A body holds the points of one list only. -/
theorem PolygonText.unique {points' : List (env.Double × env.Double)}
    (h : PolygonText env body points) (h' : PolygonText env body points') : points = points' := by
  obtain ⟨_, _, hrun⟩ := h.run
  obtain ⟨_, _, hrun'⟩ := h'.run
  rw [Reads.unique h.spells h'.spells, hrun'] at hrun
  simpa [eq_comm] using congrArg (Option.map PolygonState.rings) hrun

theorem parseS2Polygon_of_text (hbody : NulFree body) (h : PolygonText env body points) :
    parseS2Polygon env (some body) out = (0, some ⟨[loopOf env points]⟩) := by
  obtain ⟨longitude, latitude, hrun⟩ := h.run
  have hloop := (polygonLoop_eq_ok_iff hbody).mpr ⟨_, _, _, rfl, h.spells, hrun, le_rfl⟩
  simp [parseS2Polygon, hloop, polygonScan]

/-- Before the ring of an accepted body is closed, the points of the body have been pushed. -/
theorem pushed_of_text (hbody : NulFree body) (h : PolygonText env body points) :
    ∃ s, Rounds (fun s => charAt body s.i != 0) (polygonRound env body) (polygonInit env) s ∧
      s.state = .loopDelim ∧ charAt body s.i = chr ']' ∧ s.vertices = points.map (vertex env) := by
  have hspells := h.spells
  rw [polygonTokens_singleton] at hspells
  obtain ⟨m, n, hread, hlex, -⟩ := Reads.exists_token_after hspells
  have hne : points ≠ [] := by
    rintro rfl
    exact absurd h.min (by simp)
  obtain ⟨longitude, latitude, hrun⟩ := allows_polygonLimit.run_points [] [] points
    env.indeterminate env.indeterminate hne (by rw [List.length_nil, Nat.zero_add]; exact h.max)
  have hrun' : runTokens (capped polygonLimit polygonStep) (polygonStart env.indeterminate)
      ([.opening, .opening] ++ separated (points.map pointTokens)) =
        some ⟨.loopDelim, [], points, longitude, latitude⟩ := by
    rw [runTokens_append, allows_polygonLimit.run_brackets _ Nat.one_pos]
    exact hrun
  have hrounds := (polygon_scansBy hbody).rounds_iff.mpr ⟨_, m, _, rfl, hread, hrun'⟩
  refine ⟨_, hrounds, rfl, ?_, rfl⟩
  exact (charAt_eq_iff (by decide)).mpr ((lexToken_closing_iff env).mp hlex).1

theorem polygonHalts_ne_zero {q : PolygonState env.Double} {j : Nat} {e : Int}
    (h : Halts (lexer env) polygonStep polygonLimit errorAt body q j e) : e ≠ 0 := by
  cases h with
  | fail => exact (Int.ne_of_lt (errorAt_neg j))
  | limit _ _ hl =>
      obtain ⟨state, rings, points, longitude, latitude⟩ := q
      cases state <;> simp only [polygonLimit, Option.ite_none_right_eq_some, reduceCtorEq,
        Option.some.injEq] at hl
      · simp [← hl.2, parseErrLoopLimit]
      · simp [← hl.2, pointLimit]

theorem exists_text_of_accepted (hbody : NulFree body)
    (h : (parseS2Polygon env (some body) out).1 = 0) : ∃ points, PolygonText env body points := by
  obtain ⟨ts, j, q, hread, hrun, ⟨hj, hstate, he⟩ | ⟨-, -, he⟩ | ⟨e, hhalts, he⟩⟩ :=
    parseS2Polygon_cases hbody out
  · obtain ⟨rfl, hvalid, hbelow⟩ := polygon_run hrun
    obtain ⟨state, rings, points, longitude, latitude⟩ := q
    obtain rfl : state = .eol := hstate
    obtain ⟨hmin, hne, -⟩ := hvalid
    obtain ⟨hmax, hlen⟩ := hbelow
    obtain ⟨ring, rfl⟩ : ∃ ring, rings = [ring] := by
      apply List.length_eq_one_iff.mp
      have hpos : 0 < rings.length := List.length_pos_of_ne_nil hne
      have hle : rings.length ≤ 1 := hlen
      omega
    obtain rfl : j = body.length := le_antisymm (reads_closing_le hread) hj
    exact ⟨ring, hmin ring (by simp), hmax ring (by simp), hread⟩
  · rw [he] at h
    exact absurd h (Int.ne_of_lt (errorAt_neg j))
  · rw [he] at h
    exact absurd h (polygonHalts_ne_zero hhalts)

theorem parseS2Polygon_rejected (h : (parseS2Polygon env (some body) out).1 ≠ 0) :
    (parseS2Polygon env (some body) out).2 = none := by
  simp only [parseS2Polygon] at h ⊢
  split at h
  · rfl
  · split_ifs at h ⊢ <;> simp_all

end Results

end RedisS2Geo.Text
