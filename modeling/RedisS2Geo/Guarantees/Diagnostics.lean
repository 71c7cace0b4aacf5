import RedisS2Geo.Text.PointTexts
import RedisS2Geo.Store.Runs

/-!
# What a rejection tells

A syntax error is reported by the position where reading stops. The limit of rings has
its own code, while the limit of points is reported by its number.
-/

namespace RedisS2Geo.Guarantees
open Foundation Source Text Store

variable {env : Environment} {body : Bytes} {out : Option (S2Polygon env.Point)}

/-! ### Reaching a limit -/

/-- Reading arrives at the bracket that would open a second ring. -/
def RingLimitAt (env : Environment) (body : Bytes) (i : Nat) : Prop :=
  ∃ ring : List (env.Double × env.Double), 4 ≤ ring.length ∧
    Reads (lexer env) body 0 (.opening :: (ringTokens ring ++ [.comma])) i ∧
      body[i]? = some (chr '[')

/-- Reading arrives at the bracket that would open the 65th point of a ring, after any
complete rings. -/
def PointLimitAt (env : Environment) (body : Bytes) (i : Nat) : Prop :=
  ∃ (rings : List (List (env.Double × env.Double))) (points : List (env.Double × env.Double)),
    (∀ ring ∈ rings, 4 ≤ ring.length) ∧ points.length = 64 ∧
      Reads (lexer env) body 0
        (.opening :: followed (rings.map ringTokens) ++
          .opening :: followed (points.map pointTokens)) i ∧
        body[i]? = some (chr '[')

/-- A state of the machine at its limit, before an opening bracket. -/
structure AtLimit (env : Environment) (body : Bytes) (i : Nat) (state : ParsingState)
    (e : Int) : Prop where
  run : ∃ ts q, Reads (lexer env) body 0 ts i ∧
    runTokens polygonStep (polygonStart env.indeterminate) ts = some q ∧ q.state = state ∧
      polygonLimit q = some e
  bracket : body[i]? = some (chr '[')

theorem RingLimitAt.atLimit {i : Nat} (h : RingLimitAt env body i) :
    AtLimit env body i .loopStart parseErrLoopLimit := by
  obtain ⟨ring, hmin, hread, hc⟩ := h
  obtain ⟨longitude, latitude, hrun⟩ := run_loopStart env.indeterminate [ring]
    (by simpa using hmin)
  have htokens : followed ([ring].map ringTokens) = ringTokens ring ++ [.comma] := by
    simp [followed]
  rw [htokens] at hrun
  exact ⟨⟨_, _, hread, hrun, rfl, by simp [polygonLimit, loopLimit]⟩, hc⟩

theorem PointLimitAt.atLimit {i : Nat} (h : PointLimitAt env body i) :
    AtLimit env body i .pointStart pointLimit := by
  obtain ⟨rings, points, hmin, hlen, hread, hc⟩ := h
  obtain ⟨longitude, latitude, hrun⟩ := run_pointStart env.indeterminate rings hmin points
  exact ⟨⟨_, _, hread, hrun, rfl, by simp [polygonLimit, pointLimit, hlen]⟩, hc⟩

/-- The code of the limit that a scan reaches first, at a position. -/
inductive FirstLimit (env : Environment) (body : Bytes) (i : Nat) : Int → Prop
  | ring (h : RingLimitAt env body i) (hfirst : ∀ j, PointLimitAt env body j → i < j) :
      FirstLimit env body i parseErrLoopLimit
  | point (h : PointLimitAt env body i) (hfirst : ∀ j, RingLimitAt env body j → i < j) :
      FirstLimit env body i pointLimit

/-- The limit at which the parser returns is the first one. -/
theorem firstLimit_of_run {ts : List (Token env.Double)} {i n : Nat}
    {q q' : PolygonState env.Double} {t : Token env.Double} {e : Int}
    (hread : Reads (lexer env) body 0 ts i)
    (hrun : runTokens (capped polygonLimit polygonStep) (polygonStart env.indeterminate) ts =
      some q)
    (ht : (lexer env).lex (body.drop i) = some (t, n)) (hs : polygonStep q t = some q')
    (hl : polygonLimit q = some e) : FirstLimit env body i e := by
  have hbefore : ∀ {j state e'}, AtLimit env body j state e' → q.state ≠ state → i < j := by
    rintro j state e' ⟨⟨us, p, hread', hrun', rfl, hl'⟩, -⟩ hne
    apply lt_of_limit hread hrun hread' hrun' hl'
    rintro rfl
    exact hne rfl
  obtain ⟨rfl, hvalid, hbelow⟩ := polygon_run hrun
  obtain ⟨state, rings, points, longitude, latitude⟩ := q
  have hmove := polygonStep_eq_some_iff.mp hs
  cases hmove with
  | openRing =>
      obtain ⟨hlen, rfl⟩ : loopLimit ≤ rings.length ∧ parseErrLoopLimit = e := by
        simpa [polygonLimit] using hl
      obtain ⟨ring, rfl⟩ : ∃ ring, rings = [ring] :=
        List.length_eq_one_iff.mp (le_antisymm hbelow.2 hlen)
      obtain ⟨hc, -⟩ := (lexToken_opening_iff env).mp ht
      refine .ring ⟨ring, hvalid.1 ring (by simp), ?_, hc⟩ ?_
      · simpa [polygonSpell, followed] using hread
      · intro j hj
        exact hbefore hj.atLimit (by simp)
  | openPoint =>
      obtain ⟨hlen, rfl⟩ : pointLimit ≤ points.length ∧ (pointLimit : Int) = e := by
        simpa [polygonLimit] using hl
      obtain ⟨hc, -⟩ := (lexToken_opening_iff env).mp ht
      refine .point ⟨rings, points, hvalid.1, le_antisymm hbelow.2.2 hlen, hread, hc⟩ ?_
      intro j hj
      exact hbefore hj.atLimit (by simp)
  | _ => simp [polygonLimit] at hl

/-- Where a limit is reached, the parser returns the code of the first one. -/
theorem parse_of_atLimit (hbody : NulFree body) {i : Nat} {state : ParsingState} {e : Int}
    (h : AtLimit env body i state e) (out : Option (S2Polygon env.Point)) :
    ∃ m ret, m ≤ i ∧ FirstLimit env body m ret ∧
      parseS2Polygon env (some body) out = (ret, none) := by
  obtain ⟨⟨ts, q, hread, hrun, hstate, hl⟩, hc⟩ := h
  have ht : (lexer env).lex (body.drop i) = some (.opening, 1) :=
    (lexToken_opening_iff env).mpr ⟨hc, rfl⟩
  obtain ⟨q', hs⟩ : ∃ q', polygonStep q .opening = some q' := by
    obtain ⟨state, rings, points, longitude, latitude⟩ := q
    cases state with
    | loopStart => exact ⟨_, rfl⟩
    | pointStart => exact ⟨_, rfl⟩
    | _ => simp [polygonLimit] at hl
  obtain ⟨us, m, p, p', u, n, ret, hm, hread', hrun', hu, hs', hl'⟩ :=
    exists_limit hread hrun ht hs hl
  exact ⟨m, ret, hm, firstLimit_of_run hread' hrun' hu hs' hl',
    parseS2Polygon_of_halts hbody hread' hrun' (.limit hu hs' hl')⟩

/-- A positive code comes from a limit. -/
theorem exists_firstLimit (hbody : NulFree body)
    (h : 0 < (parseS2Polygon env (some body) out).1) :
    ∃ i, FirstLimit env body i (parseS2Polygon env (some body) out).1 := by
  obtain ⟨ts, j, q, hread, hrun, ⟨-, -, he⟩ | ⟨-, -, he⟩ | ⟨e, hhalts, he⟩⟩ :=
    parseS2Polygon_cases hbody out
  · rw [he] at h
    exact absurd h (lt_irrefl _)
  · rw [he] at h
    exact absurd h (Int.not_lt.mpr (Int.le_of_lt (errorAt_neg j)))
  · rw [he] at h ⊢
    cases hhalts with
    | fail => exact absurd h (Int.not_lt.mpr (Int.le_of_lt (errorAt_neg j)))
    | limit ht hs hl => exact ⟨j, firstLimit_of_run hread hrun ht hs hl⟩

/-! ### The codes of the limits -/

/-- Each limit, when it is reached first, is reported by its own code. -/
structure LimitCodes (env : Environment) (body : Bytes) (ret : Int) : Prop where
  point : ret = parseErrPointLimit ↔
    ∃ i, PointLimitAt env body i ∧ ∀ j, RingLimitAt env body j → i < j
  ring : ret = parseErrLoopLimit ↔
    ∃ i, RingLimitAt env body i ∧ ∀ j, PointLimitAt env body j → i < j
  other : 0 < ret → ret = parseErrPointLimit ∨ ret = parseErrLoopLimit

theorem eq_pointLimit_of_first (hbody : NulFree body) {i : Nat} (h : PointLimitAt env body i)
    (hfirst : ∀ j, RingLimitAt env body j → i < j) (out : Option (S2Polygon env.Point)) :
    (parseS2Polygon env (some body) out).1 = pointLimit := by
  obtain ⟨m, ret, hm, hlimit, he⟩ := parse_of_atLimit hbody h.atLimit out
  rw [he]
  cases hlimit with
  | ring hring => exact absurd (hfirst m hring) (Nat.not_lt.mpr hm)
  | point => rfl

theorem eq_loopLimit_of_first (hbody : NulFree body) {i : Nat} (h : RingLimitAt env body i)
    (hfirst : ∀ j, PointLimitAt env body j → i < j) (out : Option (S2Polygon env.Point)) :
    (parseS2Polygon env (some body) out).1 = parseErrLoopLimit := by
  obtain ⟨m, ret, hm, hlimit, he⟩ := parse_of_atLimit hbody h.atLimit out
  rw [he]
  cases hlimit with
  | ring => rfl
  | point hpoint => exact absurd (hfirst m hpoint) (Nat.not_lt.mpr hm)

/-- A positive code is that of the rings where the limit of points is not the first one. -/
theorem eq_loopLimit_of_pos (hbody : NulFree body)
    (hnone : ¬ ∃ i, PointLimitAt env body i ∧ ∀ j, RingLimitAt env body j → i < j)
    (h : 0 < (parseS2Polygon env (some body) out).1) :
    (parseS2Polygon env (some body) out).1 = parseErrLoopLimit ∧
      ∃ i, RingLimitAt env body i ∧ ∀ j, PointLimitAt env body j → i < j := by
  obtain ⟨i, hi⟩ := exists_firstLimit hbody h
  generalize (parseS2Polygon env (some body) out).1 = ret at hi ⊢
  cases hi with
  | ring hring hfirst => exact ⟨rfl, i, hring, hfirst⟩
  | point hpoint hfirst => exact absurd ⟨i, hpoint, hfirst⟩ hnone

/-- The codes are right unless the limit of points is reached first. -/
theorem limitCodes_iff (hbody : NulFree body) (out : Option (S2Polygon env.Point)) :
    LimitCodes env body (parseS2Polygon env (some body) out).1 ↔
      ¬ ∃ i, PointLimitAt env body i ∧ ∀ j, RingLimitAt env body j → i < j := by
  constructor
  · rintro hcodes ⟨i, hpoint, hfirst⟩
    have hcode := hcodes.point.mpr ⟨i, hpoint, hfirst⟩
    rw [eq_pointLimit_of_first hbody hpoint hfirst out] at hcode
    exact absurd hcode (by decide)
  · intro hnone
    constructor
    · constructor
      · intro h
        obtain ⟨hcode, -⟩ := eq_loopLimit_of_pos hbody hnone (by rw [h]; decide)
        rw [h] at hcode
        exact absurd hcode (by decide)
      · intro h
        exact absurd h hnone
    · constructor
      · intro h
        exact (eq_loopLimit_of_pos hbody hnone (by rw [h]; decide)).2
      · rintro ⟨i, hring, hfirst⟩
        exact eq_loopLimit_of_first hbody hring hfirst out
    · intro h
      exact Or.inr (eq_loopLimit_of_pos hbody hnone h).1

/-- A text of one ring of more than 64 points is refused with the limit for its code. -/
theorem parse_of_many (hbody : NulFree body) {points : List (env.Double × env.Double)}
    (hlen : 64 < points.length) (hspells : Spells (lexer env) body (polygonTokens [points])) :
    parseS2Polygon env (some body) out = ((pointLimit : Int), none) := by
  obtain ⟨first, point, rest, rfl, hfirst⟩ : ∃ first point rest,
      points = first ++ point :: rest ∧ first.length = 64 := by
    refine ⟨points.take 64, points[64], points.drop 65, ?_, ?_⟩
    · rw [← List.drop_eq_getElem_cons hlen, List.take_append_drop]
    · rw [List.length_take]
      omega
  obtain ⟨more, hmore⟩ := polygonTokens_split first rest point
  rw [hmore] at hspells
  obtain ⟨m, n, hread, hlex, -⟩ := Reads.exists_token_after hspells
  obtain ⟨longitude, latitude, hrun⟩ := allows_polygonLimit.run_followed_points [] [] first
    env.indeterminate env.indeterminate (by rw [List.length_nil, Nat.zero_add, hfirst]; rfl)
  have hrun' : runTokens (capped polygonLimit polygonStep) (polygonStart env.indeterminate)
      ([.opening, .opening] ++ followed (first.map pointTokens)) =
        some ⟨.pointStart, [], first, longitude, latitude⟩ := by
    rw [runTokens_append, allows_polygonLimit.run_brackets _ Nat.one_pos]
    exact hrun
  apply parseS2Polygon_of_halts hbody hread hrun'
  exact .limit hlex rfl (by simp [polygonLimit, pointLimit, hfirst])

/-- A ring of 65 points. -/
def manyPoints : Bytes := polygonOf 0 0 0 0 (List.replicate 65 ⟨0, ascii "[0,0]", 0⟩)

theorem nulFree_manyPoints : NulFree manyPoints := by
  apply nulFree_polygonOf
  intro t ht
  obtain rfl := List.eq_of_mem_replicate ht
  decide

theorem parse_manyPoints : (parseS2Polygon sampleEnvironment (some manyPoints) none).1 = 64 := by
  have haccepted : (parseS2LatLng sampleEnvironment (some (ascii "[0,0]")) none).1 = 0 := by decide
  have hnul : NulFree (ascii "[0,0]") := by decide
  obtain ⟨point, htext⟩ := exists_pointText_of_accepted hnul haccepted
  have hitems : ∀ item ∈ List.replicate 65 ((⟨0, ascii "[0,0]", 0⟩ : PaddedText), point),
      NulFree item.1.text ∧ PointText sampleEnvironment item.1.text item.2 := by
    intro item hitem
    obtain rfl := List.eq_of_mem_replicate hitem
    exact ⟨hnul, htext⟩
  have hspells := spells_polygonOf strtodStops_sample (a := 0) (b := 0) (c := 0) (d := 0)
    (fun item hitem => (hitems item hitem).1) (fun item hitem => (hitems item hitem).2)
  rw [List.map_replicate, List.map_replicate] at hspells
  have hlen : 64 < (List.replicate 65 point).length := by
    rw [List.length_replicate]
    decide
  exact congrArg Prod.fst (parse_of_many nulFree_manyPoints hlen hspells)

theorem limitCodes_manyPoints : ¬ LimitCodes sampleEnvironment manyPoints
    (parseS2Polygon sampleEnvironment (some manyPoints) none).1 := by
  intro h
  have hcode := h.other
  rw [parse_manyPoints] at hcode
  exact absurd hcode (by decide)

theorem limitCodes_iff_manyPoints : ∃ i, PointLimitAt sampleEnvironment manyPoints i ∧
    ∀ j, RingLimitAt sampleEnvironment manyPoints j → i < j := by
  by_contra hnone
  have hcodes := (limitCodes_iff nulFree_manyPoints none).mpr hnone
  have hcode := hcodes.other
  rw [parse_manyPoints] at hcode
  exact absurd hcode (by decide)

/-! ### The positions of syntax errors -/

/-- Reading arrives at a bracket that a limit forbids. -/
def ReachesLimit (env : Environment) (body : Bytes) : Prop :=
  ∃ i, RingLimitAt env body i ∨ PointLimitAt env body i

theorem FirstLimit.reaches {i : Nat} {e : Int} (h : FirstLimit env body i e) :
    ReachesLimit env body := by
  cases h with
  | ring h => exact ⟨i, Or.inl h⟩
  | point h => exact ⟨i, Or.inr h⟩

theorem code_pos_of_reaches (hbody : NulFree body) (h : ReachesLimit env body)
    (out : Option (S2Polygon env.Point)) : 0 < (parseS2Polygon env (some body) out).1 := by
  have hpos : ∀ {i e}, FirstLimit env body i e → 0 < e := by
    intro i e h
    cases h <;> decide
  obtain ⟨i, hring | hpoint⟩ := h
  · obtain ⟨m, ret, -, hlimit, he⟩ := parse_of_atLimit hbody hring.atLimit out
    rw [he]
    exact hpos hlimit
  · obtain ⟨m, ret, -, hlimit, he⟩ := parse_of_atLimit hbody hpoint.atLimit out
    rw [he]
    exact hpos hlimit

/-- The place where reading stops, and the code that tells it. -/
structure ReportedAt (L : Lexer UInt8 (Token env.Double))
    (Language : List (Token env.Double) → Prop) (body : Bytes) (ret : Int) (k : Nat) : Prop where
  le_length : k ≤ body.length
  stops : StopsAt L Language body k
  only : ∀ j, StopsAt L Language body j → j = k
  code : ret = -((k : Int) + 1)

theorem errorAt_eq (i : Nat) : errorAt i = -((i : Int) + 1) := by
  simp only [errorAt]
  omega

theorem reported_of_stopsAt {L : Lexer UInt8 (Token env.Double)}
    {Language : List (Token env.Double) → Prop} {k : Nat} (h : StopsAt L Language body k)
    (hk : k ≤ body.length) : ReportedAt L Language body (errorAt k) k :=
  ⟨hk, h, fun _ hj => hj.unique h, errorAt_eq k⟩

/-- A scan that ran to the end of the body or failed reports where reading stops. -/
theorem reported_of_run {σ : Type} {step : σ → Token env.Double → Option σ} {start q : σ}
    {Language : List (Token env.Double) → Prop} (R : Recognizer step start Language)
    (hstrtod : StrtodEndsInside env) {ts : List (Token env.Double)} {j : Nat}
    (hread : Reads (lexer env) body 0 ts j) (hrun : runTokens step start ts = some q)
    (hend : body.length ≤ j ∨ ∃ c, body[j]? = some c ∧ ¬ (lexer env).blank c ∧
      ∀ t n, (lexer env).lex (body.drop j) = some (t, n) → step q t = none) :
    ReportedAt (lexer env) Language body (errorAt j) j := by
  have hj : j ≤ body.length :=
    hread.le_length (Nat.zero_le _) fun s t n ht =>
      le_trans (lexToken_le hstrtod ht) (length_cString_le s)
  apply reported_of_stopsAt _ hj
  rcases hend with hend | ⟨c, hc, hb, ht⟩
  · obtain rfl : j = body.length := le_antisymm hj hend
    exact R.stopsAt_end hread hrun
  · apply R.stopsAt hread hrun _ ht
    intro c' hc'
    obtain rfl : c = c' := by simpa [hc] using hc'
    exact hb

theorem polygon_error (hstrtod : StrtodEndsInside env) (hbody : NulFree body)
    (hret : (parseS2Polygon env (some body) out).1 ≠ 0) (hlimit : ¬ ReachesLimit env body) :
    ∃ k, ReportedAt (lexer env) PolygonSentence body (parseS2Polygon env (some body) out).1 k := by
  have R := polygonRecognizer env.indeterminate
  obtain ⟨ts, j, q, hread, hrun, ⟨-, -, he⟩ | ⟨hj, -, he⟩ | ⟨e, hhalts, he⟩⟩ :=
    parseS2Polygon_cases hbody out
  · rw [he] at hret
    exact absurd rfl hret
  · rw [he]
    exact ⟨j, reported_of_run R hstrtod hread (run_of_capped hrun) (Or.inl hj)⟩
  · rw [he]
    cases hhalts with
    | fail hc hb ht =>
        exact ⟨j, reported_of_run R hstrtod hread (run_of_capped hrun) (Or.inr ⟨_, hc, hb, ht⟩)⟩
    | limit ht hs hl => exact absurd (firstLimit_of_run hread hrun ht hs hl).reaches hlimit

theorem point_error (hstrtod : StrtodEndsInside env) (hbody : NulFree body)
    {out : Option env.LatLng} (hret : (parseS2LatLng env (some body) out).1 ≠ 0) :
    ∃ k, ReportedAt (lexer env) PointSentence body (parseS2LatLng env (some body) out).1 k := by
  have R := pointRecognizer env.indeterminate
  obtain ⟨ts, j, q, hread, hrun, ⟨hj, -, he⟩ | ⟨hj, -, he⟩ | ⟨e, hhalts, he⟩⟩ :=
    parseS2LatLng_cases hbody out
  · have hresult : (latLngResult env (q.longitude, q.latitude) j).1 = errorAt j := by
      rw [he, latLngResult] at hret
      simp only [latLngResult]
      split_ifs at hret ⊢
      · exact absurd rfl hret
      · rfl
    rw [he, hresult]
    exact ⟨j, reported_of_run R hstrtod hread (run_of_capped hrun) (Or.inl hj)⟩
  · rw [he]
    exact ⟨j, reported_of_run R hstrtod hread (run_of_capped hrun) (Or.inl hj)⟩
  · rw [he]
    cases hhalts with
    | fail hc hb ht =>
        exact ⟨j, reported_of_run R hstrtod hread (run_of_capped hrun) (Or.inr ⟨_, hc, hb, ht⟩)⟩
    | limit _ _ hl => cases hl

/-- Both readers report the place where reading stops; for a complete point that is out of
range this is the end of the body. -/
theorem syntax_error_position (hstrtod : StrtodEndsInside env) (hbody : NulFree body) :
    (∀ out, (parseS2Polygon env (some body) out).1 ≠ 0 → ¬ ReachesLimit env body →
      ∃ k, ReportedAt (lexer env) PolygonSentence body
        (parseS2Polygon env (some body) out).1 k) ∧
    ∀ out, (parseS2LatLng env (some body) out).1 ≠ 0 →
      ∃ k, ReportedAt (lexer env) PointSentence body (parseS2LatLng env (some body) out).1 k ∧
        ((∃ point, PointText env body point) → k = body.length) := by
  refine ⟨fun out hret hlimit => polygon_error hstrtod hbody hret hlimit, ?_⟩
  intro out hret
  obtain ⟨k, hk⟩ := point_error hstrtod hbody hret
  refine ⟨k, hk, ?_⟩
  rintro ⟨point, htext⟩
  have hrun := run_of_capped (run_pointTokens env.indeterminate point)
  exact (hk.only _ ((pointRecognizer env.indeterminate).stopsAt_end htext hrun)).symm

/-- The second point lacks its closing bracket. -/
theorem syntax_error_position_sample :
    ReportedAt (lexer sampleEnvironment) PolygonSentence (ascii "[[[1,2],[3,4, [5,6]]]")
      (parseS2Polygon sampleEnvironment (some (ascii "[[[1,2],[3,4, [5,6]]]")) none).1 12 := by
  have hbody : NulFree (ascii "[[[1,2],[3,4, [5,6]]]") := by decide
  have hret : (parseS2Polygon sampleEnvironment (some (ascii "[[[1,2],[3,4, [5,6]]]")) none).1 =
      -13 := by decide
  have hlimit : ¬ ReachesLimit sampleEnvironment (ascii "[[[1,2],[3,4, [5,6]]]") := by
    intro h
    have hpos := code_pos_of_reaches hbody h none
    rw [hret] at hpos
    exact absurd hpos (by decide)
  obtain ⟨k, hk⟩ := (syntax_error_position strtodEndsInside_sample hbody).1 none
    (by rw [hret]; decide) hlimit
  obtain rfl : k = 12 := by
    have hcode := hk.code
    rw [hret] at hcode
    omega
  exact hk

end RedisS2Geo.Guarantees
