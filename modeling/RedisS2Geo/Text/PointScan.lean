import RedisS2Geo.Text.Scans

/-!
# What `ParseS2LatLng` returns

The stand-alone reader of points scans by a machine of five moves, which has no limits.
-/

namespace RedisS2Geo.Text
open Foundation Source

/-- The state of the parser between two tokens. -/
structure PointState (V : Type) where
  state : ParsingState
  longitude : V
  latitude : V

section Machine
variable {V : Type}

/-- The next state after a token; `none` when the token may not follow. -/
def pointStep (q : PointState V) : Token V → Option (PointState V)
  | .opening =>
      match q.state with
      | .pointStart => some { q with state := .pointLon }
      | _ => none
  | .number value =>
      match q.state with
      | .pointLon => some { q with longitude := value, state := .pointDelim }
      | .pointLat => some { q with latitude := value, state := .pointEnd }
      | _ => none
  | .comma =>
      match q.state with
      | .pointDelim => some { q with state := .pointLat }
      | _ => none
  | .closing =>
      match q.state with
      | .pointEnd => some { q with state := .eol }
      | _ => none

/-- The machine has no limits. -/
def pointUnlimited (_ : PointState V) : Option Int := none

/-- The first state. -/
def pointStart (value : V) : PointState V := ⟨.pointStart, value, value⟩

/-- The tokens read so far. -/
def pointSpell (q : PointState V) : List (Token V) :=
  match q.state with
  | .pointLon => [.opening]
  | .pointDelim => [.opening, .number q.longitude]
  | .pointLat => [.opening, .number q.longitude, .comma]
  | .pointEnd => [.opening, .number q.longitude, .comma, .number q.latitude]
  | .eol => pointTokens (q.longitude, q.latitude)
  | _ => []

theorem pointSpell_step {q q' : PointState V} {t : Token V} (h : pointStep q t = some q') :
    pointSpell q' = pointSpell q ++ [t] := by
  obtain ⟨state, longitude, latitude⟩ := q
  cases t <;> cases state <;> simp only [pointStep, reduceCtorEq, Option.some.injEq] at h <;>
    (subst h; rfl)

theorem legal_pointSpell (q : PointState V) : LegalPrefix PointSentence (pointSpell q) := by
  obtain ⟨state, longitude, latitude⟩ := q
  have hrest : ∃ us, pointSpell ⟨state, longitude, latitude⟩ ++ us =
      pointTokens (longitude, latitude) := by
    cases state with
    | pointLon => exact ⟨[.number longitude, .comma, .number latitude, .closing], rfl⟩
    | pointDelim => exact ⟨[.comma, .number latitude, .closing], rfl⟩
    | pointLat => exact ⟨[.number latitude, .closing], rfl⟩
    | pointEnd => exact ⟨[.closing], rfl⟩
    | eol => exact ⟨[], rfl⟩
    | _ => exact ⟨pointTokens (longitude, latitude), rfl⟩
  obtain ⟨us, hus⟩ := hrest
  exact ⟨us, _, hus⟩

theorem run_pointTokens (value : V) (point : V × V) :
    runTokens (capped pointUnlimited pointStep) (pointStart value) (pointTokens point) =
      some ⟨.eol, point.1, point.2⟩ := rfl

/-- The machine reads the prefixes of points. -/
def pointRecognizer (value : V) : Recognizer pointStep (pointStart value) PointSentence where
  Valid _ := True
  spell := pointSpell
  valid_start := trivial
  spell_start := rfl
  valid_step _ _ := trivial
  spell_step _ h := pointSpell_step h
  legal _ := legal_pointSpell _
  accepts := by
    rintro ts ⟨point, rfl⟩
    exact ⟨_, run_of_capped (run_pointTokens value point)⟩

/-- The bracket of a point ends it. -/
theorem prefixFree_pointSentence (value : V) : PrefixFree (PointSentence (V := V)) := by
  apply (pointRecognizer value).prefixFree
  rintro ts q ⟨point, rfl⟩ hrun t
  obtain rfl : _ = q :=
    Option.some.inj ((run_of_capped (run_pointTokens value point)).symm.trans hrun)
  cases t <;> rfl

end Machine

/-! ### The loop of the parser -/

variable (env : Environment)

/-- The local variables of the parser in a state of the machine. -/
def latLngScan (q : PointState env.Double) (i : Nat) : LatLngScan env :=
  ⟨q.state, i, q.latitude, q.longitude⟩

variable {env} {body : Bytes} {out : Option env.LatLng}

/-- A round away from spaces moves the machine by the token at its position. -/
theorem latLngRound_eq {i : Nat} (hc : charAt body i ≠ chr ' ') (q : PointState env.Double) :
    latLngRound env body (latLngScan env q i) =
      respond pointStep pointUnlimited errorAt (latLngScan env) q i
        (lexToken env (body.drop i)) := by
  have T := tests_of_ne_space env hc
  obtain ⟨state, longitude, latitude⟩ := q
  cases hread : lexToken env (body.drop i) with
  | none =>
      rw [hread] at T
      cases state <;> simp [latLngRound, latLngScan, respond, T.space, T.opening, T.comma,
        T.closing, T.number]
  | some read =>
      obtain ⟨t, n⟩ := read
      have hn := lexToken_length hread
      rw [hread] at T
      cases t with
      | number value =>
          cases state <;> simp [latLngRound, latLngScan, respond, pointStep, pointUnlimited,
            T.space, T.opening, T.comma, T.closing, T.number]
      | _ =>
          obtain rfl : n = 1 := by simpa using hn
          cases state <;> simp [latLngRound, latLngScan, respond, pointStep, pointUnlimited,
            T.space, T.opening, T.comma, T.closing, T.number]

theorem latLng_scansBy (hbody : NulFree body) :
    ScansBy (lexer env) pointStep pointUnlimited errorAt body
      (fun s => charAt body (LatLngScan.i s) != 0) (latLngRound env body) (latLngScan env) := by
  apply scansBy_of_round hbody
  · intro q i
    rfl
  · intro q i hc
    simp [latLngRound, latLngScan, hc]
  · intro q i hc
    exact latLngRound_eq hc q

theorem latLngLoop_eq_ok_iff (hbody : NulFree body) {s : LatLngScan env} :
    boundedLoop (fun s => charAt body s.i != 0) (latLngRound env body) body.length
        (latLngInit env) = .ok s ↔
      ∃ ts j q, s = latLngScan env q j ∧ Reads (lexer env) body 0 ts j ∧
        runTokens (capped pointUnlimited pointStep) (pointStart env.indeterminate) ts = some q ∧
          body.length ≤ j :=
  loop_eq_ok_iff (latLng_scansBy hbody) (fun _ _ => latLngRound_lt)
    (q := pointStart env.indeterminate)

theorem latLngLoop_eq_error_iff (hbody : NulFree body) {e : Int} :
    boundedLoop (fun s => charAt body s.i != 0) (latLngRound env body) body.length
        (latLngInit env) = .error e ↔
      ∃ ts j q, Reads (lexer env) body 0 ts j ∧
        runTokens (capped pointUnlimited pointStep) (pointStart env.indeterminate) ts = some q ∧
          Halts (lexer env) pointStep pointUnlimited errorAt body q j e :=
  loop_eq_error_iff (latLng_scansBy hbody) (fun _ _ => latLngRound_lt)
    (q := pointStart env.indeterminate)

/-! ### The results of the parser -/

/-- The point read at the end of a text of a given length. -/
def latLngResult (env : Environment) (point : env.Double × env.Double) (length : Nat) :
    Int × Option env.LatLng :=
  let latLng := env.fromDegrees point.2 point.1
  if env.isValid latLng then (0, some latLng) else (errorAt length, none)

/-- The parser ends where the text does or returns early. -/
theorem parseS2LatLng_cases (hbody : NulFree body) (out : Option env.LatLng) :
    ∃ ts j q, Reads (lexer env) body 0 ts j ∧
      runTokens (capped pointUnlimited pointStep) (pointStart env.indeterminate) ts = some q ∧
        ((body.length ≤ j ∧ q.state = .eol ∧
            parseS2LatLng env (some body) out = latLngResult env (q.longitude, q.latitude) j) ∨
          (body.length ≤ j ∧ q.state ≠ .eol ∧
            parseS2LatLng env (some body) out = (errorAt j, none)) ∨
          ∃ e, Halts (lexer env) pointStep pointUnlimited errorAt body q j e ∧
            parseS2LatLng env (some body) out = (e, none)) := by
  cases hloop : boundedLoop (fun s => charAt body s.i != 0) (latLngRound env body) body.length
      (latLngInit env) with
  | error e =>
      obtain ⟨ts, j, q, hread, hrun, hhalts⟩ := (latLngLoop_eq_error_iff hbody).mp hloop
      exact ⟨ts, j, q, hread, hrun, Or.inr (Or.inr ⟨e, hhalts, by simp [parseS2LatLng, hloop]⟩)⟩
  | ok s =>
      obtain ⟨ts, j, q, rfl, hread, hrun, hj⟩ := (latLngLoop_eq_ok_iff hbody).mp hloop
      refine ⟨ts, j, q, hread, hrun, ?_⟩
      by_cases hstate : q.state = .eol
      · exact Or.inl ⟨hj, hstate, by
          simp [parseS2LatLng, hloop, latLngScan, latLngResult, hstate]⟩
      · exact Or.inr (Or.inl ⟨hj, hstate, by simp [parseS2LatLng, hloop, latLngScan, hstate]⟩)

/-- A body that is one point. -/
def PointText (env : Environment) (body : Bytes) (point : env.Double × env.Double) : Prop :=
  Spells (lexer env) body (pointTokens point)

theorem parseS2LatLng_of_text (hbody : NulFree body) {point : env.Double × env.Double}
    (h : PointText env body point) :
    parseS2LatLng env (some body) out = latLngResult env point body.length := by
  have hrun := run_pointTokens env.indeterminate point
  have hloop := (latLngLoop_eq_ok_iff hbody).mpr ⟨_, _, _, rfl, h, hrun, le_rfl⟩
  simp [parseS2LatLng, hloop, latLngScan, latLngResult]

/-- A state at the end of a text knows the point of the text. -/
theorem pointText_of_run {ts : List (Token env.Double)} {j : Nat} {q : PointState env.Double}
    (hread : Reads (lexer env) body 0 ts j)
    (hrun : runTokens (capped pointUnlimited pointStep) (pointStart env.indeterminate) ts = some q)
    (hj : body.length ≤ j) (hstate : q.state = .eol) :
    j = body.length ∧ PointText env body (q.longitude, q.latitude) := by
  have hspell : pointSpell q = ts := (pointRecognizer _).spell_eq (run_of_capped hrun)
  obtain ⟨state, longitude, latitude⟩ := q
  obtain rfl : state = .eol := hstate
  subst hspell
  have hread : Reads (lexer env) body 0
    ([.opening, .number longitude, .comma, .number latitude] ++ [.closing]) j := hread
  obtain rfl : j = body.length := le_antisymm (reads_closing_le hread) hj
  exact ⟨rfl, hread⟩

theorem exists_pointText_of_accepted (hbody : NulFree body)
    (h : (parseS2LatLng env (some body) out).1 = 0) : ∃ point, PointText env body point := by
  obtain ⟨ts, j, q, hread, hrun, ⟨hj, hstate, -⟩ | ⟨-, -, he⟩ | ⟨e, hhalts, he⟩⟩ :=
    parseS2LatLng_cases hbody out
  · exact ⟨_, (pointText_of_run hread hrun hj hstate).2⟩
  · rw [he] at h
    exact absurd h (Int.ne_of_lt (errorAt_neg j))
  · rw [he] at h
    cases hhalts with
    | fail => exact absurd h (Int.ne_of_lt (errorAt_neg j))
    | limit _ _ hl => cases hl

end RedisS2Geo.Text
