import RedisS2Geo.Foundation.Reading
import RedisS2Geo.Store.Clearing

/-!
# Everything a command can do to a keyspace

The six commands registered as read-only observe the keyspace and always answer.
The other four have a short list of effects, on every keyspace and with every
argument. Invariants of the module are proved by cases on this list, and no proof
behind it unfolds a command again.
-/

namespace RedisS2Geo.Store
open Foundation Source

/-! ### Commands that observe -/

theorem observes_validateIndex (indexName : Bytes) : Observes (validateIndex indexName) :=
  fun K => ⟨_, validateIndex_eq indexName K⟩

theorem observes_getPolygonBody (indexName polygonName : Bytes) :
    Observes (getPolygonBody indexName polygonName) :=
  fun K => ⟨_, getPolygonBody_eq indexName polygonName K⟩

theorem observes_getPolygonBodies (indexName : Bytes) (polygonNames : List Bytes) :
    Observes (getPolygonBodies indexName polygonNames) := by
  apply Observes.bind (observes_call (hmget_snd _ _))
  intro reply
  split <;> exact Observes.pure _

theorem observes_listPolygons (ω : Orders) (indexName : Bytes) :
    Observes (listPolygons ω indexName) := by
  apply Observes.bind (observes_call (hkeys_snd _ _))
  intro reply
  split <;> exact Observes.pure _

theorem observes_getPolygonsInCells (ω : Orders) (indexName : Bytes) (cells : Finset Bytes) :
    Observes (getPolygonsInCells ω indexName cells) := by
  apply Observes.bind (observes_call (sunion_snd _ _))
  intro reply
  split <;> exact Observes.pure _

section Commands
variable (env : Environment) (ω : Orders) (args : List Bytes)

theorem observes_getIndexCommand : Observes (getIndexCommand args) := by
  unfold getIndexCommand
  split
  · split
    · apply Observes.bind (observes_validateIndex _)
      intro ret
      split <;> exact Observes.pure _
    · exact Observes.pure _
  · exact Observes.pure _

theorem observes_getPolygonCommand : Observes (getPolygonCommand args) := by
  unfold getPolygonCommand
  split
  · split
    · split
      · apply Observes.bind (observes_validateIndex _)
        intro ret
        split
        · exact Observes.pure _
        · exact Observes.pure _
        · apply Observes.bind (observes_getPolygonBody _ _)
          intro ret
          split <;> exact Observes.pure _
      · exact Observes.pure _
    · exact Observes.pure _
  · exact Observes.pure _

theorem observes_getMultiplePolygonsCommand : Observes (getMultiplePolygonsCommand args) := by
  unfold getMultiplePolygonsCommand
  split
  · split
    · apply Observes.ite (Observes.pure _)
      apply Observes.bind (observes_validateIndex _)
      intro ret
      split
      · exact Observes.pure _
      · exact Observes.pure _
      · apply Observes.bind (observes_getPolygonBodies _ _)
        intro ret
        split <;> exact Observes.pure _
    · exact Observes.pure _
  · exact Observes.pure _

theorem observes_listPolygonsCommand : Observes (listPolygonsCommand ω args) := by
  unfold listPolygonsCommand
  split
  · split
    · apply Observes.bind (observes_validateIndex _)
      intro ret
      split
      · exact Observes.pure _
      · exact Observes.pure _
      · apply Observes.bind (observes_listPolygons ω _)
        intro ret
        split <;> exact Observes.pure _
    · exact Observes.pure _
  · exact Observes.pure _

theorem observes_searchPolygonCommand : Observes (searchPolygonCommand env ω args) := by
  unfold searchPolygonCommand
  split
  · split
    · apply Observes.bind (observes_validateIndex _)
      intro ret
      split
      · split
        · apply Observes.ite (Observes.pure _)
          apply Observes.bind (observes_getPolygonsInCells ω _ _)
          intro ret
          split <;> exact Observes.pure _
        · exact Observes.pure _
      · exact Observes.pure _
    · exact Observes.pure _
  · exact Observes.pure _

theorem observes_searchPointCommand : Observes (searchPointCommand env ω args) := by
  unfold searchPointCommand
  split
  · split
    · apply Observes.bind (observes_validateIndex _)
      intro ret
      split
      · split
        · apply Observes.ite (Observes.pure _)
          apply Observes.bind (observes_getPolygonsInCells ω _ _)
          intro ret
          split <;> exact Observes.pure _
        · exact Observes.pure _
      · exact Observes.pure _
    · exact Observes.pure _
  · exact Observes.pure _

end Commands

/-- The commands that `RedisModule_OnLoad` registers as read-only. -/
def ReadOnly (c : Command) : Prop := (registration c.name).flags = "readonly"

instance (c : Command) : Decidable (ReadOnly c) := inferInstanceAs (Decidable (_ = _))

/-- A command registered as read-only answers on every keyspace and leaves it as it is. -/
theorem observes_exec (env : Environment) (ω : Orders) {c : Command} (h : ReadOnly c) :
    Observes (exec env ω c) := by
  obtain ⟨name, args⟩ := c
  cases name with
  | iget => exact observes_getIndexCommand args
  | polyget => exact observes_getPolygonCommand args
  | polymget => exact observes_getMultiplePolygonsCommand args
  | polylist => exact observes_listPolygonsCommand ω args
  | polysearch => exact observes_searchPolygonCommand env ω args
  | pointsearch => exact observes_searchPointCommand env ω args
  | iset | idel | polyset | polydel => simp [ReadOnly, registration] at h

/-! ### Effects -/

/-- The effects of a command, with the reply that tells them. -/
inductive Effect (env : Environment) (ω : Orders) (K : Keyspace Bytes) :
    Command → Outcome → Keyspace Bytes → Prop
  | unchanged (c : Command) (o : Outcome) : Effect env ω K c o K
  | created {i : Bytes} (hx : IndexAbsent K i) :
      Effect env ω K ⟨.iset, [i]⟩ (replyWithSimpleString "OK") (withMarker K i)
  | stored {i p b : Bytes} {old : Finset Bytes} (hx : IndexExists K i) (hp : Accepted p)
      (hb : bodyTerms env b ≠ ∅)
      (hold : asSet (K (createPolygonCellInfoSetKey i p)) = some old) :
      Effect env ω K ⟨.polyset, [i, p, b]⟩ (replyWithLongLong 1)
        (withPolygon K i p b old (bodyTerms env b))
  | removed {i p : Bytes} {old : Finset Bytes} (hx : IndexExists K i) (hp : Accepted p)
      (hold : asSet (K (createPolygonCellInfoSetKey i p)) = some old) :
      Effect env ω K ⟨.polydel, [i, p]⟩ (replyWithLongLong (if old = ∅ then 0 else 1))
        (withoutPolygon K i p old)
  | cleared {i : Bytes} {fields : Polygons} {K' : Keyspace Bytes} (hx : IndexExists K i)
      (hf : asHash (K (createIndexPolygonsHashKey i)) = some fields)
      (hloop : clearNames i (ω.hkeys.list fields.keys) K = some (true, K')) :
      Effect env ω K ⟨.idel, [i]⟩ (replyWithLongLong 1) (withoutMarker K' i)
  | stopped {i : Bytes} {fields : Polygons} {K' : Keyspace Bytes} (hx : IndexExists K i)
      (hf : asHash (K (createIndexPolygonsHashKey i)) = some fields)
      (hloop : clearNames i (ω.hkeys.list fields.keys) K = some (false, K')) :
      Effect env ω K ⟨.idel, [i]⟩ (replyWithError "failed to delete the index") K'

/-- The states in which a command brings the server down. -/
inductive Fatal (env : Environment) (ω : Orders) (K : Keyspace Bytes) : Command → Prop
  | stored {i p b : Bytes} (hx : IndexExists K i) (hp : Accepted p) (hb : bodyTerms env b ≠ ∅)
      (hinfo : asSet (K (createPolygonCellInfoSetKey i p)) = none) :
      Fatal env ω K ⟨.polyset, [i, p, b]⟩
  | removed {i p : Bytes} (hx : IndexExists K i) (hp : Accepted p)
      (hinfo : asSet (K (createPolygonCellInfoSetKey i p)) = none) :
      Fatal env ω K ⟨.polydel, [i, p]⟩
  | cleared {i : Bytes} {fields : Polygons} (hx : IndexExists K i)
      (hf : asHash (K (createIndexPolygonsHashKey i)) = some fields)
      (hloop : clearNames i (ω.hkeys.list fields.keys) K = none) :
      Fatal env ω K ⟨.idel, [i]⟩

section
variable {env : Environment} {ω : Orders} {K K' : Keyspace Bytes} {c : Command} {o : Outcome}
variable {i p b : Bytes}

theorem Fatal.exec_eq_none (h : Fatal env ω K c) : exec env ω c K = none := by
  cases h with
  | stored hx hp hb hinfo => exact (setPolygonCommand_stored ω hx hp hb).trans (by rw [hinfo]; rfl)
  | removed hx hp hinfo => exact (deletePolygonCommand_exists ω hx hp).trans (by rw [hinfo]; rfl)
  | cleared hx hf hloop => exact (deleteIndexCommand_eq ω hx hf).trans (by rw [hloop]; rfl)

/-- A command is fatal, or it answers with one of its effects. -/
def Settled (env : Environment) (ω : Orders) (K : Keyspace Bytes) (c : Command) : Prop :=
  Fatal env ω K c ∨ ∃ o K', exec env ω c K = some (o, K') ∧ Effect env ω K c o K'

/-- A command that answers and leaves the keyspace as it is. -/
theorem settled_of_unchanged (h : exec env ω c K = some (o, K)) : Settled env ω K c :=
  Or.inr ⟨o, K, h, .unchanged c o⟩

theorem settled_polyset (hx : IndexExists K i) (hp : Accepted p) :
    Settled env ω K ⟨.polyset, [i, p, b]⟩ := by
  by_cases hb : bodyTerms env b = ∅
  · obtain ⟨text, -, he⟩ := setPolygonCommand_refused ω hp hb
    exact settled_of_unchanged (he K hx)
  · have he := setPolygonCommand_stored ω hx hp hb
    cases hold : asSet (K (createPolygonCellInfoSetKey i p)) with
    | none => exact Or.inl (.stored hx hp hb hold)
    | some old =>
        rw [hold, Option.map_some] at he
        exact Or.inr ⟨_, _, he, .stored hx hp hb hold⟩

theorem settled_polydel (hx : IndexExists K i) (hp : Accepted p) :
    Settled env ω K ⟨.polydel, [i, p]⟩ := by
  have he := deletePolygonCommand_exists ω hx hp
  cases hold : asSet (K (createPolygonCellInfoSetKey i p)) with
  | none => exact Or.inl (.removed hx hp hold)
  | some old =>
      refine Or.inr ⟨_, _, he.trans ?_, .removed hx hp hold⟩
      rw [hold, Option.map_some]
      by_cases ho : old = ∅
      · subst ho
        rw [if_pos rfl, if_pos rfl, withoutPolygon_empty hold]
      · rw [if_neg ho, if_neg ho, withoutPolygon]

theorem settled_idel (hx : IndexExists K i) : Settled env ω K ⟨.idel, [i]⟩ := by
  cases hf : asHash (K (createIndexPolygonsHashKey i)) with
  | none => exact settled_of_unchanged (deleteIndexCommand_wrongType ω hx hf)
  | some fields =>
      have he := deleteIndexCommand_eq ω hx hf
      cases hloop : clearNames i (ω.hkeys.list fields.keys) K with
      | none => exact Or.inl (.cleared hx hf hloop)
      | some r =>
          obtain ⟨done, K'⟩ := r
          rw [hloop, Option.map_some] at he
          cases done with
          | true => exact Or.inr ⟨_, _, he, .cleared hx hf hloop⟩
          | false => exact Or.inr ⟨_, _, he, .stopped hx hf hloop⟩

/-- The writing commands on an index that does not exist. -/
theorem settled_absent (hs : Shaped c) (hw : ¬ ReadOnly c)
    (hname : ∀ n ∈ names c, Accepted n) (hi : c.args.head? = some i) (hx : IndexAbsent K i) :
    Settled env ω K c := by
  cases hs <;> obtain rfl := Option.some.inj hi
  case iset => exact Or.inr ⟨_, _, setIndexCommand_absent hx, .created hx⟩
  case idel => exact settled_of_unchanged (deleteIndexCommand_absent ω hx)
  case polyset p b =>
    exact settled_of_unchanged (setPolygonCommand_absent ω hx (hname p (by simp [names])))
  case polydel p =>
    exact settled_of_unchanged (deletePolygonCommand_absent ω hx (hname p (by simp [names])))
  all_goals exact absurd rfl hw

theorem settled_exists (hs : Shaped c) (hw : ¬ ReadOnly c)
    (hname : ∀ n ∈ names c, Accepted n) (hi : c.args.head? = some i) (hx : IndexExists K i) :
    Settled env ω K c := by
  cases hs <;> obtain rfl := Option.some.inj hi
  case iset => exact settled_of_unchanged (setIndexCommand_exists hx)
  case idel => exact settled_idel hx
  case polyset p b => exact settled_polyset hx (hname p (by simp [names]))
  case polydel p => exact settled_polydel hx (hname p (by simp [names]))
  all_goals exact absurd rfl hw

/-- Every command on every keyspace is fatal or answers with one of its effects. -/
theorem settled (env : Environment) (ω : Orders) (K : Keyspace Bytes) (c : Command) :
    Settled env ω K c := by
  by_cases hw : ReadOnly c
  · obtain ⟨o, ho⟩ := observes_exec env ω hw K
    exact settled_of_unchanged ho
  by_cases hs : Shaped c
  · by_cases hr : ∃ n ∈ names c, ¬ Accepted n
    · obtain ⟨text, he, -⟩ := exec_refused env K ω hs hr
      exact settled_of_unchanged he
    · push Not at hr
      obtain ⟨i, hi, hmem⟩ : ∃ i, c.args.head? = some i ∧ i ∈ names c := by
        cases hs <;> exact ⟨_, rfl, by simp [names]⟩
      rcases index_cases K (hr i hmem) with hx | hx | hx
      · exact settled_exists hs hw hr hi hx
      · exact settled_absent hs hw hr hi hx
      · obtain ⟨text, he⟩ := exec_foreign env ω hs hr hi
        exact settled_of_unchanged (he K hx)
  · exact settled_of_unchanged (exec_wrongArity ω hs)

/-- What a command that answers has done. -/
theorem exec_effect (h : exec env ω c K = some (o, K')) : Effect env ω K c o K' := by
  rcases settled env ω K c with hfatal | ⟨o', K₁, he, heff⟩
  · rw [hfatal.exec_eq_none] at h
    cases h
  · obtain ⟨rfl, rfl⟩ := exec_unique h he
    exact heff

/-- The server dies in the fatal states and in no other. -/
theorem exec_eq_none_iff : exec env ω c K = none ↔ Fatal env ω K c := by
  constructor
  · intro h
    rcases settled env ω K c with hfatal | ⟨o, K', he, -⟩
    · exact hfatal
    · rw [h] at he
      cases he
  · exact Fatal.exec_eq_none

end

end RedisS2Geo.Store
