import RedisS2Geo.Foundation.Sequencing
import RedisS2Geo.Store.Commands

/-!
# The calls that a command makes

Whatever a command is given and whatever the keyspace holds, each of its calls is one
of a short list: it is on a key of the named index, and a body is written only by a
`POLYSET` that the parser accepted. A property that sequencing keeps and that holds
of these calls holds of the command.
-/

namespace RedisS2Geo.Store
open Foundation Source

/-- The calls that a command makes on the keys of the index it names. -/
inductive ModuleCall (env : Environment) (c : Command) (indexName : Bytes) : Call Bytes → Prop
  | readMarker (field : Bytes) :
      ModuleCall env c indexName (hget (createIndexMetaHashKey indexName) field)
  | writeMarker : ModuleCall env c indexName
      (hset (createIndexMetaHashKey indexName) indexParamsKey indexParamsValue)
  | deleteMarker : ModuleCall env c indexName (del (createIndexMetaHashKey indexName))
  | listNames (order : Enumeration Bytes) :
      ModuleCall env c indexName (hkeys order (createIndexPolygonsHashKey indexName))
  | readBody (polygonName : Bytes) :
      ModuleCall env c indexName (hget (createIndexPolygonsHashKey indexName) polygonName)
  | readBodies (polygonNames : List Bytes) :
      ModuleCall env c indexName (hmget (createIndexPolygonsHashKey indexName) polygonNames)
  | storeBody {polygonName body : Bytes} (hc : c = ⟨.polyset, [indexName, polygonName, body]⟩)
      (hparse : parsePolygon env body ≠ none) :
      ModuleCall env c indexName (hset (createIndexPolygonsHashKey indexName) polygonName body)
  | deleteBody (polygonName : Bytes) :
      ModuleCall env c indexName (hdel (createIndexPolygonsHashKey indexName) polygonName)
  | addTerms (polygonName : Bytes) (cells : List Bytes) : ModuleCall env c indexName
      (sadd (createPolygonCellInfoSetKey indexName polygonName) cells)
  | readTerms (order : Enumeration Bytes) (polygonName : Bytes) : ModuleCall env c indexName
      (smembers order (createPolygonCellInfoSetKey indexName polygonName))
  | deleteTerms (polygonName : Bytes) :
      ModuleCall env c indexName (del (createPolygonCellInfoSetKey indexName polygonName))
  | addToCell (cellId polygonName : Bytes) : ModuleCall env c indexName
      (sadd (createIndexCellsSetKey indexName cellId) [polygonName])
  | removeFromCell (cellId polygonName : Bytes) : ModuleCall env c indexName
      (srem (createIndexCellsSetKey indexName cellId) polygonName)
  | searchCells (order : Enumeration Bytes) (cells : List Bytes) : ModuleCall env c indexName
      (sunion order (cells.map (createIndexCellsSetKeyCStr indexName)))

/-- A property of computations that sequencing keeps and that holds of the calls. -/
structure HoldsOfCalls (Φ : ∀ α : Type, ModuleM α → Prop) (env : Environment) (c : Command)
    (indexName : Bytes) : Prop where
  seq : Sequential Φ
  call : ∀ {call}, ModuleCall env c indexName call → Φ _ (redisModuleCall call)

variable {Φ : ∀ α : Type, ModuleM α → Prop} {env : Environment} {c : Command} {indexName : Bytes}
variable (H : HoldsOfCalls Φ env c indexName) (ω : Orders)
include H

/-! ### The functions of the index -/

theorem calls_validateIndex : Φ _ (validateIndex indexName) := by
  apply H.seq.bind (H.call (.readMarker _))
  intro reply
  split
  · exact H.seq.pure _
  · exact H.seq.ite (H.seq.pure _) (H.seq.pure _)
  · exact H.seq.pure _

theorem calls_createIndex : Φ _ (createIndex indexName) :=
  H.seq.bind (H.call .writeMarker) fun _ => H.seq.pure _

theorem calls_listPolygons : Φ _ (listPolygons ω indexName) := by
  apply H.seq.bind (H.call (.listNames _))
  intro reply
  split <;> exact H.seq.pure _

theorem calls_setPolygonBody {polygonName body : Bytes}
    (hc : c = ⟨.polyset, [indexName, polygonName, body]⟩) (hparse : parsePolygon env body ≠ none) :
    Φ _ (setPolygonBody indexName polygonName body) :=
  H.seq.bind (H.call (.storeBody hc hparse)) fun _ => H.seq.pure _

theorem calls_getPolygonBody (polygonName : Bytes) :
    Φ _ (getPolygonBody indexName polygonName) := by
  apply H.seq.bind (H.call (.readBody _))
  intro reply
  split <;> exact H.seq.pure _

theorem calls_getPolygonBodies (polygonNames : List Bytes) :
    Φ _ (getPolygonBodies indexName polygonNames) := by
  apply H.seq.bind (H.call (.readBodies _))
  intro reply
  split <;> exact H.seq.pure _

theorem calls_deletePolygonBody (polygonName : Bytes) :
    Φ _ (deletePolygonBody indexName polygonName) :=
  H.seq.bind (H.call (.deleteBody _)) fun _ => H.seq.pure _

theorem calls_addToCells (polygonName : Bytes) (cells : List Bytes) :
    Φ _ (addToCells indexName polygonName cells) := by
  induction cells with
  | nil => exact H.seq.pure _
  | cons cell rest ih =>
      exact H.seq.bind (H.call (.addToCell _ _)) fun _ => ih

theorem calls_setPolygonCells (polygonName : Bytes) (cells : Finset Bytes) :
    Φ _ (setPolygonCells ω indexName polygonName cells) :=
  H.seq.bind (H.call (.addTerms _ _)) fun _ =>
    H.seq.bind (calls_addToCells H polygonName _) fun _ => H.seq.pure _

/-- Reading an item of a reply touches no key, also when it brings the server down. -/
theorem calls_stringFromArrayElement (reply : CallReply Bytes) (idx : Nat) :
    Φ _ (stringFromArrayElement reply idx) := by
  unfold stringFromArrayElement
  split
  · rename_i items
    cases hitem : items[idx]?.join with
    | none => exact H.seq.dead
    | some s => exact H.seq.pure s
  · exact H.seq.dead

theorem calls_removeFromCells (polygonName : Bytes) (cells : CallReply Bytes)
    (indices : List Nat) :
    Φ _ (removeFromCells indexName polygonName cells indices) := by
  induction indices with
  | nil => exact H.seq.pure _
  | cons idx rest ih =>
      exact H.seq.bind (calls_stringFromArrayElement H cells idx) fun cellId =>
        H.seq.bind (H.call (.removeFromCell _ _)) fun _ => ih

theorem calls_deletePolygonCells (polygonName : Bytes) :
    Φ _ (deletePolygonCells ω indexName polygonName) := by
  apply H.seq.bind (H.call (.readTerms _ _))
  intro cells
  apply H.seq.ite (H.seq.pure _)
  exact H.seq.bind (H.call (.deleteTerms _)) fun _ =>
    H.seq.bind (calls_removeFromCells H polygonName cells _) fun _ => H.seq.pure _

theorem calls_deletePolygons (polygons : CallReply Bytes) (indices : List Nat) :
    Φ _ (deletePolygons ω indexName polygons indices) := by
  induction indices with
  | nil => exact H.seq.pure _
  | cons idx rest ih =>
      apply H.seq.bind (calls_stringFromArrayElement H polygons idx)
      intro polygonName
      apply H.seq.bind (calls_deletePolygonBody H polygonName)
      intro ret
      split
      · exact H.seq.pure _
      · apply H.seq.bind (calls_deletePolygonCells H ω polygonName)
        intro ret
        split
        · exact H.seq.pure _
        · exact ih

theorem calls_deleteIndex : Φ _ (deleteIndex ω indexName) := by
  apply H.seq.bind (calls_listPolygons H ω)
  intro ret
  split
  · exact H.seq.pure _
  · apply H.seq.bind (calls_deletePolygons H ω _ _)
    intro ret
    split
    · exact H.seq.pure _
    · apply H.seq.bind (H.call .deleteMarker)
      intro reply
      split <;> exact H.seq.pure _

theorem calls_getPolygonsInCells (cells : Finset Bytes) :
    Φ _ (getPolygonsInCells ω indexName cells) := by
  apply H.seq.bind (H.call (.searchCells _ _))
  intro reply
  split <;> exact H.seq.pure _

/-! ### The commands -/

theorem calls_setIndexCommand :
    Φ _ (setIndexCommand [indexName]) := by
  simp only [setIndexCommand]
  split
  · apply H.seq.bind (calls_validateIndex H)
    intro ret
    split
    · apply H.seq.bind (calls_createIndex H)
      intro ret
      split <;> exact H.seq.pure _
    · exact H.seq.pure _
  · exact H.seq.pure _

theorem calls_getIndexCommand :
    Φ _ (getIndexCommand [indexName]) := by
  simp only [getIndexCommand]
  split
  · apply H.seq.bind (calls_validateIndex H)
    intro ret
    split <;> exact H.seq.pure _
  · exact H.seq.pure _

theorem calls_deleteIndexCommand :
    Φ _ (deleteIndexCommand ω [indexName]) := by
  simp only [deleteIndexCommand]
  split
  · apply H.seq.bind (calls_validateIndex H)
    intro ret
    split
    · exact H.seq.pure _
    · exact H.seq.pure _
    · exact H.seq.pure _
    · apply H.seq.bind (calls_deleteIndex H ω)
      intro ret
      split <;> exact H.seq.pure _
  · exact H.seq.pure _

theorem calls_setPolygonCommand {polygonName body : Bytes}
    (hc : c = ⟨.polyset, [indexName, polygonName, body]⟩) :
    Φ _ (setPolygonCommand env ω [indexName, polygonName, body]) := by
  simp only [setPolygonCommand]
  split
  · split
    · apply H.seq.bind (calls_validateIndex H)
      intro ret
      split
      · split
        · rename_i polygon hparse
          apply H.seq.ite (H.seq.pure _)
          apply H.seq.bind (calls_setPolygonBody H hc (by simp [hparse]))
          intro ret
          split
          · apply H.seq.bind (calls_deletePolygonCells H ω polygonName)
            intro ret
            split
            · apply H.seq.bind (calls_setPolygonCells H ω polygonName _)
              intro ret
              split <;> exact H.seq.pure _
            · apply H.seq.bind (calls_setPolygonCells H ω polygonName _)
              intro ret
              split <;> exact H.seq.pure _
            · exact H.seq.pure _
          · exact H.seq.pure _
        · exact H.seq.pure _
      · exact H.seq.pure _
    · exact H.seq.pure _
  · exact H.seq.pure _

theorem calls_getPolygonCommand (polygonName : Bytes) :
    Φ _ (getPolygonCommand [indexName, polygonName]) := by
  simp only [getPolygonCommand]
  split
  · split
    · apply H.seq.bind (calls_validateIndex H)
      intro ret
      split
      · exact H.seq.pure _
      · exact H.seq.pure _
      · apply H.seq.bind (calls_getPolygonBody H polygonName)
        intro ret
        split <;> exact H.seq.pure _
    · exact H.seq.pure _
  · exact H.seq.pure _

theorem calls_getMultiplePolygonsCommand (polygonName : Bytes) (rest : List Bytes) :
    Φ _ (getMultiplePolygonsCommand (indexName :: polygonName :: rest)) := by
  simp only [getMultiplePolygonsCommand]
  split
  · apply H.seq.ite (H.seq.pure _)
    apply H.seq.bind (calls_validateIndex H)
    intro ret
    split
    · exact H.seq.pure _
    · exact H.seq.pure _
    · apply H.seq.bind (calls_getPolygonBodies H _)
      intro ret
      split <;> exact H.seq.pure _
  · exact H.seq.pure _

theorem calls_deletePolygonCommand (polygonName : Bytes) :
    Φ _ (deletePolygonCommand ω [indexName, polygonName]) := by
  simp only [deletePolygonCommand]
  split
  · split
    · apply H.seq.bind (calls_validateIndex H)
      intro ret
      split
      · exact H.seq.pure _
      · exact H.seq.pure _
      · apply H.seq.bind (calls_deletePolygonBody H polygonName)
        intro ret
        split
        · apply H.seq.bind (calls_deletePolygonCells H ω polygonName)
          intro ret
          split <;> exact H.seq.pure _
        · exact H.seq.pure _
    · exact H.seq.pure _
  · exact H.seq.pure _

theorem calls_listPolygonsCommand :
    Φ _ (listPolygonsCommand ω [indexName]) := by
  simp only [listPolygonsCommand]
  split
  · apply H.seq.bind (calls_validateIndex H)
    intro ret
    split
    · exact H.seq.pure _
    · exact H.seq.pure _
    · apply H.seq.bind (calls_listPolygons H ω)
      intro ret
      split <;> exact H.seq.pure _
  · exact H.seq.pure _

theorem calls_searchPolygonCommand (body : Bytes) :
    Φ _ (searchPolygonCommand env ω [indexName, body]) := by
  simp only [searchPolygonCommand]
  split
  · apply H.seq.bind (calls_validateIndex H)
    intro ret
    split
    · split
      · apply H.seq.ite (H.seq.pure _)
        apply H.seq.bind (calls_getPolygonsInCells H ω _)
        intro ret
        split <;> exact H.seq.pure _
      · exact H.seq.pure _
    · exact H.seq.pure _
  · exact H.seq.pure _

theorem calls_searchPointCommand (body : Bytes) :
    Φ _ (searchPointCommand env ω [indexName, body]) := by
  simp only [searchPointCommand]
  split
  · apply H.seq.bind (calls_validateIndex H)
    intro ret
    split
    · split
      · apply H.seq.ite (H.seq.pure _)
        apply H.seq.bind (calls_getPolygonsInCells H ω _)
        intro ret
        split <;> exact H.seq.pure _
      · exact H.seq.pure _
    · exact H.seq.pure _
  · exact H.seq.pure _

omit H in
/-- A property of this kind holds of every command, with whatever arguments. -/
theorem holds_exec (hi : c.args.head? = some indexName) (H : HoldsOfCalls Φ env c indexName) :
    Φ _ (exec env ω c) := by
  by_cases hs : Shaped c
  · cases hs <;> obtain rfl := Option.some.inj hi
    case iset => exact calls_setIndexCommand H
    case iget => exact calls_getIndexCommand H
    case idel => exact calls_deleteIndexCommand H ω
    case polyset => exact calls_setPolygonCommand H ω rfl
    case polyget => exact calls_getPolygonCommand H _
    case polymget => exact calls_getMultiplePolygonsCommand H _ _
    case polydel => exact calls_deletePolygonCommand H ω _
    case polylist => exact calls_listPolygonsCommand H ω
    case polysearch => exact calls_searchPolygonCommand H ω _
    case pointsearch => exact calls_searchPointCommand H ω _
  · have hpure : exec env ω c = pure wrongArity := funext fun K => exec_wrongArity ω hs
    rw [hpure]
    exact H.seq.pure _

end RedisS2Geo.Store
