import RedisS2Geo.Guarantees.Bodies
import RedisS2Geo.Text.PointTexts

/-!
# Where accepted texts end

The last bracket of a text ends it: what follows in an accepted text are spaces. A request
that lost the end of its body on the way is therefore refused, whatever it was.

## Implementation notes

Both readers are taken with a `strtod` whose numerals are not affected by what follows a
space, a comma or a closing bracket. The texts are those of C strings.
-/

namespace RedisS2Geo.Guarantees
open Foundation Source Text Store

variable {env : Environment} {body rest : Bytes}

/-! ### The two readers -/

theorem nulFree_left (h : NulFree (body ++ rest)) : NulFree body :=
  fun hmem => h (List.mem_append_left _ hmem)

/-- A text that ends with a closing bracket can be followed by spaces. -/
theorem spells_spaces (hstops : StrtodStops env) {ts : List (Token env.Double)}
    (hspells : Spells (lexer env) body (ts ++ [.closing])) (hbody : NulFree (body ++ rest))
    (hrest : ∀ c ∈ rest, c = chr ' ') : Spells (lexer env) (body ++ rest) (ts ++ [.closing]) := by
  obtain ⟨n, rfl⟩ : ∃ n, rest = spaces n := ⟨_, List.eq_replicate_of_mem hrest⟩
  have hread := (readsIn_of_spells hstops hspells).append (readsIn_spaces n)
  rw [List.append_nil] at hread
  exact hread.spells hbody

/-- A longer text is a polygon exactly when only spaces were added, and it is the same one. -/
theorem polygonText_append_iff (hstops : StrtodStops env) (hnul : NulFree (body ++ rest))
    {points points' : List (env.Double × env.Double)} (h : PolygonText env body points) :
    PolygonText env (body ++ rest) points' ↔ points' = points ∧ ∀ c ∈ rest, c = chr ' ' := by
  obtain ⟨ts, hts⟩ : ∃ ts : List (Token env.Double),
      polygonTokens [points] = ts ++ [.closing] := ⟨_, rfl⟩
  have hspells := h.spells
  rw [hts] at hspells
  constructor
  · intro h'
    have hsentence : PolygonSentence (ts ++ [.closing]) :=
      ⟨[points], by simp, by simpa using h.min, hts.symm⟩
    have hsentence' : PolygonSentence (polygonTokens [points']) :=
      ⟨[points'], by simp, by simpa using h'.min, rfl⟩
    obtain ⟨heq, hblanks⟩ := (readsIn_of_spells hstops hspells).blanks_of_spells
      (prefixFree_polygonSentence env.indeterminate) hnul hsentence h'.spells hsentence'
    have hbody : PolygonText env body points' := by
      refine ⟨h'.min, h'.max, ?_⟩
      rw [heq]
      exact hspells
    exact ⟨hbody.unique h, hblanks⟩
  · rintro ⟨rfl, hrest⟩
    refine ⟨h.min, h.max, ?_⟩
    rw [hts]
    exact spells_spaces hstops hspells hnul hrest

theorem pointText_append_iff (hstops : StrtodStops env) (hnul : NulFree (body ++ rest))
    {point point' : env.Double × env.Double} (h : PointText env body point) :
    PointText env (body ++ rest) point' ↔ point' = point ∧ ∀ c ∈ rest, c = chr ' ' := by
  have hspells : Spells (lexer env) body
    ([.opening, .number point.1, .comma, .number point.2] ++ [.closing]) := h
  constructor
  · intro h'
    obtain ⟨heq, hblanks⟩ := (readsIn_of_spells hstops hspells).blanks_of_spells
      (prefixFree_pointSentence env.indeterminate) hnul ⟨point, rfl⟩ h' ⟨point', rfl⟩
    refine ⟨?_, hblanks⟩
    simp only [pointTokens, List.cons_append, List.nil_append, List.cons.injEq,
      Token.number.injEq, and_true, true_and] at heq
    exact Prod.ext heq.1 heq.2
  · rintro ⟨rfl, hrest⟩
    exact spells_spaces hstops hspells hnul hrest

theorem exists_pointText_of_parsed (hnul : NulFree body) (h : parseLatLng env body ≠ none) :
    ∃ point, PointText env body point := by
  have haccepted : (parseS2LatLng env (some body) none).1 = 0 := by
    by_contra hrejected
    exact h (by simp [parseLatLng, hrejected])
  exact exists_pointText_of_accepted hnul haccepted

/-- Spaces at the end of a polygon do not change it. -/
theorem parsePolygon_spaces (hstops : StrtodStops env) (hnul : NulFree (body ++ rest))
    (hrest : ∀ c ∈ rest, c = chr ' ') (h : parsePolygon env body ≠ none) :
    parsePolygon env (body ++ rest) = parsePolygon env body := by
  obtain ⟨points, htext⟩ := exists_text_of_parsed (nulFree_left hnul) h
  have hlonger := (polygonText_append_iff hstops hnul htext).mpr ⟨rfl, hrest⟩
  rw [parsePolygon, parsePolygon, parseS2Polygon_of_text hnul hlonger,
    parseS2Polygon_of_text (nulFree_left hnul) htext]

theorem parseLatLng_spaces (hstops : StrtodStops env) (hnul : NulFree (body ++ rest))
    (hrest : ∀ c ∈ rest, c = chr ' ') (h : parseLatLng env body ≠ none) :
    parseLatLng env (body ++ rest) = parseLatLng env body := by
  obtain ⟨point, htext⟩ := exists_pointText_of_parsed (nulFree_left hnul) h
  have hlonger := (pointText_append_iff hstops hnul htext).mpr ⟨rfl, hrest⟩
  rw [parseLatLng, parseLatLng, parseS2LatLng_of_text hnul hlonger,
    parseS2LatLng_of_text (nulFree_left hnul) htext, latLngResult, latLngResult]
  split_ifs <;> rfl

/-- The commands that are sent the text of a polygon or a point, behind the names. -/
def textCommands : List CommandName := [.polyset, .polysearch, .pointsearch]

/-- With this text the command gets another reply than an error on some keyspace. -/
def Answered (env : Environment) (name : CommandName) (text : Bytes) : Prop :=
  ∃ names ω K outcome K', exec env ω ⟨name, names ++ [text]⟩ K = some (outcome, K') ∧
    ∀ e, outcome.reply ≠ .error e

/-- With this text the command fails on every keyspace and leaves it as it is. -/
def Fails (env : Environment) (name : CommandName) (text : Bytes) : Prop :=
  ∀ names ω K, ∃ e status, exec env ω ⟨name, names ++ [text]⟩ K = some (⟨.error e, status⟩, K)

theorem fails_polyset (h : bodyTerms env body = ∅) : Fails env .polyset body := by
  intro names ω K
  rcases names with _ | ⟨i, _ | ⟨n, _ | ⟨a, names⟩⟩⟩
  · exact ⟨_, _, rfl⟩
  · exact ⟨_, _, rfl⟩
  · simp only [exec, List.cons_append, List.nil_append, setPolygonCommand]
    cases validateEntityName i with
    | error => exact ⟨_, _, rfl⟩
    | ok =>
        cases validateEntityName n with
        | error => exact ⟨_, _, rfl⟩
        | ok =>
            simp only [bind_apply, validateIndex_eq, Option.bind_some]
            cases markerStatus (K (createIndexMetaHashKey i)) with
            | error => exact ⟨_, _, rfl⟩
            | ok =>
                cases hparse : parsePolygon env body with
                | none => exact ⟨_, _, rfl⟩
                | some polygon =>
                    have hcard : (indexPolygon env (some polygon)).card = 0 := by
                      rw [← hparse]
                      exact Finset.card_eq_zero.mpr h
                    simp only [hcard, if_true]
                    exact ⟨_, _, rfl⟩
  · cases names <;> exact ⟨_, _, rfl⟩

theorem fails_polysearch (h : parsePolygon env body = none) : Fails env .polysearch body := by
  intro names ω K
  rcases names with _ | ⟨i, _ | ⟨a, names⟩⟩
  · exact ⟨_, _, rfl⟩
  · simp only [exec, List.cons_append, List.nil_append, searchPolygonCommand, h]
    cases validateEntityName i with
    | error => exact ⟨_, _, rfl⟩
    | ok =>
        simp only [bind_apply, validateIndex_eq, Option.bind_some]
        cases markerStatus (K (createIndexMetaHashKey i)) <;> exact ⟨_, _, rfl⟩
  · cases names <;> exact ⟨_, _, rfl⟩

theorem fails_pointsearch (h : parseLatLng env body = none) : Fails env .pointsearch body := by
  intro names ω K
  rcases names with _ | ⟨i, _ | ⟨a, names⟩⟩
  · exact ⟨_, _, rfl⟩
  · simp only [exec, List.cons_append, List.nil_append, searchPointCommand, h]
    cases validateEntityName i with
    | error => exact ⟨_, _, rfl⟩
    | ok =>
        simp only [bind_apply, validateIndex_eq, Option.bind_some]
        cases markerStatus (K (createIndexMetaHashKey i)) <;> exact ⟨_, _, rfl⟩
  · cases names <;> exact ⟨_, _, rfl⟩

theorem Fails.not_answered {name : CommandName} (h : Fails env name body) :
    ¬ Answered env name body := by
  rintro ⟨names, ω, K, outcome, K', hrun, hreply⟩
  obtain ⟨e, status, hfails⟩ := h names ω K
  obtain ⟨rfl, -⟩ := Prod.mk.inj (Option.some.inj (hfails.symm.trans hrun))
  exact hreply e rfl

theorem bodyTerms_of_unparsed (h : parsePolygon env body = none) : bodyTerms env body = ∅ := by
  rw [bodyTerms, h]
  rfl

/-- A body with terms is stored on some keyspace. -/
theorem answered_polyset_iff : Answered env .polyset body ↔ bodyTerms env body ≠ ∅ := by
  constructor
  · intro h hterms
    exact (fails_polyset hterms).not_answered h
  · intro hterms
    obtain ⟨K, hrun, -⟩ := exists_single env ascending plainName_i plainName_p hterms
    obtain ⟨_, K₁, _, -, hrest, he⟩ := run_cons_eq_some.mp hrun
    obtain ⟨outcome, K₂, _, hput, -, rfl⟩ := run_cons_eq_some.mp hrest
    obtain ⟨-, rfl, -⟩ : _ ∧ replyWithLongLong 1 = outcome ∧ _ := by simpa using he
    refine ⟨[ascii "i", ascii "p"], ascending, K₁, _, K₂, hput, ?_⟩
    intro e
    simp [replyWithLongLong]

theorem exec_polysearch_congr {text : Bytes} (h : parsePolygon env text = parsePolygon env body)
    (ω : Orders) (names : List Bytes) :
    exec env ω ⟨.polysearch, names ++ [text]⟩ = exec env ω ⟨.polysearch, names ++ [body]⟩ := by
  rcases names with _ | ⟨i, _ | ⟨a, names⟩⟩
  · rfl
  · simp only [exec, List.cons_append, List.nil_append, searchPolygonCommand, h]
  · cases names <;> rfl

theorem exec_pointsearch_congr {text : Bytes} (h : parseLatLng env text = parseLatLng env body)
    (ω : Orders) (names : List Bytes) :
    exec env ω ⟨.pointsearch, names ++ [text]⟩ = exec env ω ⟨.pointsearch, names ++ [body]⟩ := by
  rcases names with _ | ⟨i, _ | ⟨a, names⟩⟩
  · rfl
  · simp only [exec, List.cons_append, List.nil_append, searchPointCommand, h]
  · cases names <;> rfl

/-- Spaces behind an answered text leave it an answered one. -/
theorem Answered.spaces (hstops : StrtodStops env) {name : CommandName}
    (hname : name ∈ textCommands) (hnul : NulFree (body ++ rest))
    (hrest : ∀ c ∈ rest, c = chr ' ') (h : Answered env name body) :
    Answered env name (body ++ rest) := by
  simp only [textCommands, List.mem_cons, List.not_mem_nil, or_false] at hname
  rcases hname with rfl | rfl | rfl
  · rw [answered_polyset_iff] at h ⊢
    have hparse : parsePolygon env body ≠ none := fun hnone => h (bodyTerms_of_unparsed hnone)
    rwa [bodyTerms, parsePolygon_spaces hstops hnul hrest hparse]
  · have hparse : parsePolygon env body ≠ none := fun hnone =>
      (fails_polysearch hnone).not_answered h
    obtain ⟨names, ω, K, outcome, K', hrun, hreply⟩ := h
    rw [← exec_polysearch_congr (parsePolygon_spaces hstops hnul hrest hparse)] at hrun
    exact ⟨names, ω, K, outcome, K', hrun, hreply⟩
  · have hparse : parseLatLng env body ≠ none := fun hnone =>
      (fails_pointsearch hnone).not_answered h
    obtain ⟨names, ω, K, outcome, K', hrun, hreply⟩ := h
    rw [← exec_pointsearch_congr (parseLatLng_spaces hstops hnul hrest hparse)] at hrun
    exact ⟨names, ω, K, outcome, K', hrun, hreply⟩

end RedisS2Geo.Guarantees
