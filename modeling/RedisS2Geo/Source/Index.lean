import RedisS2Geo.Foundation.Keyspace
import RedisS2Geo.Source.Geo
import RedisS2Geo.Source.Parser

/-!
# Indexes in the keyspace (`index.cc`)

Every function runs against the keyspace through `RedisModule_Call`. A string of
Redis carries its length, but keys are printed with `%s` and therefore made of C
strings.

## Implementation notes

The computation type has one more outcome than a value: `none` is the death of
the server process. It models the null pointer that
`RedisModule_CallReplyArrayElement` returns for a reply that is no array, which
`RedisModule_CreateStringFromCallReply` dereferences.
-/

namespace RedisS2Geo.Source
open Foundation

/-- A computation of the module over the keyspace; `none` is a crash. -/
abbrev ModuleM := StateT (Keyspace Bytes) Option

/-- The orders in which one command sees its sets and hashes listed. -/
structure Orders where
  /-- Iteration of a `std::unordered_set`. -/
  unorderedSet : Enumeration Bytes
  /-- The reply of `HKEYS`. -/
  hkeys : Enumeration Bytes
  /-- The reply of `SMEMBERS` on each key. -/
  smembers : Bytes → Enumeration Bytes
  /-- The reply of `SUNION`. -/
  sunion : Enumeration Bytes

/-- Every set is listed in ascending order. -/
def ascending : Orders :=
  letI := lexOrder
  ⟨.sorted, .sorted, fun _ => .sorted, .sorted⟩

/-- The error codes of `index.h`; `.ok` stands for the code `0`. -/
inductive S2GeoErr where
  | unknown
  | noSuchIndex
  | invalidIndex
  | invalidEntityName
  | noSuchPolygon
  deriving DecidableEq

/-- What a function with an error code returns. -/
abbrev Ret (α : Type) := Except S2GeoErr α

/-! ### The module interface of Redis -/

/-- `RedisModule_Call`. -/
def redisModuleCall (call : Call Bytes) : ModuleM (CallReply Bytes) := fun K => some (call K)

/-- `RedisModule_CallReplyLength`: for an error reply, the length of its text. -/
def callReplyLength : CallReply Bytes → Nat
  | .string s => s.length
  | .array items => items.length
  | .error text => text.length
  | _ => 0

/-- `RedisModule_CreateStringFromCallReply` of the array element at an index. -/
def stringFromArrayElement (reply : CallReply Bytes) (idx : Nat) : ModuleM Bytes :=
  match reply with
  | .array items => fun K => (items[idx]?.join).map fun s => (s, K)
  | _ => fun _ => none

/-! ### Names and keys -/

def indexMetaSuffix : Bytes := ascii "meta"
def indexPolygonsSuffix : Bytes := ascii "polygons"
def indexCellsSuffix : Bytes := ascii "cells"
def polygonCellinfoSuffix : Bytes := ascii "cellinfo"
def entityDelim : UInt8 := chr ':'
def indexParamsKey : Bytes := ascii "params"
def indexParamsValue : Bytes := ascii "<index>"

/-- `CreateIndexMetaHashKey`. -/
def createIndexMetaHashKey (indexName : Bytes) : Bytes :=
  cString indexName ++ entityDelim :: indexMetaSuffix

/-- `CreateIndexPolygonsHashKey`. -/
def createIndexPolygonsHashKey (indexName : Bytes) : Bytes :=
  cString indexName ++ entityDelim :: indexPolygonsSuffix

/-- `CreateIndexCellsSetKey`. -/
def createIndexCellsSetKey (indexName cellId : Bytes) : Bytes :=
  cString indexName ++ entityDelim :: (indexCellsSuffix ++ entityDelim :: cString cellId)

/-- `CreateIndexCellsSetKeyCStr`; the term comes from `c_str()`. -/
def createIndexCellsSetKeyCStr (indexName cCellId : Bytes) : Bytes :=
  cString indexName ++ entityDelim :: (indexCellsSuffix ++ entityDelim :: cString cCellId)

/-- `CreatePolygonCellInfoSetKey`. -/
def createPolygonCellInfoSetKey (indexName polygonName : Bytes) : Bytes :=
  cString indexName ++ entityDelim :: (polygonCellinfoSuffix ++ entityDelim :: cString polygonName)

/-- `ValidateEntityName`: the length is that of the byte string, the search for the
delimiter stops at the first zero. -/
def validateEntityName (name : Bytes) : Ret Unit :=
  if name.length = 0 ∨ entityDelim ∈ cString name then .error .invalidEntityName else .ok ()

/-! ### Bodies -/

section Bodies
variable (env : Environment)

/-- `ParsePolygon`. -/
def parsePolygon (body : Bytes) : Option (S2Polygon env.Point) :=
  let parsed := parseS2Polygon env (some body) none
  if parsed.1 ≠ 0 then none else parsed.2

/-- `ParseLatLng`. -/
def parseLatLng (body : Bytes) : Option env.LatLng :=
  let parsed := parseS2LatLng env (some body) none
  if parsed.1 ≠ 0 then none else parsed.2

end Bodies

/-! ### The index -/

/-- `ValidateIndex`: the marker is compared as a C string. -/
def validateIndex (indexName : Bytes) : ModuleM (Ret Unit) := do
  let metaHashKey := createIndexMetaHashKey indexName
  match ← redisModuleCall (hget metaHashKey indexParamsKey) with
  | .nil => return .error .noSuchIndex
  | .string value =>
      if indexParamsValue ≠ cString value then return .error .invalidIndex
      else return .ok ()
  | _ => return .error .invalidIndex

/-- `CreateIndex` discards the reply of `HSET`. -/
def createIndex (indexName : Bytes) : ModuleM (Ret Unit) := do
  let metaHashKey := createIndexMetaHashKey indexName
  let _ ← redisModuleCall (hset metaHashKey indexParamsKey indexParamsValue)
  return .ok ()

/-- `ListPolygons`. -/
def listPolygons (ω : Orders) (indexName : Bytes) : ModuleM (Ret (CallReply Bytes)) := do
  let polygonsHash := createIndexPolygonsHashKey indexName
  match ← redisModuleCall (hkeys ω.hkeys polygonsHash) with
  | .error _ => return .error .unknown
  | reply => return .ok reply

/-- `SetPolygonBody` discards the reply of `HSET`. -/
def setPolygonBody (indexName polygonName polygonBody : Bytes) : ModuleM (Ret Unit) := do
  let polygonsHash := createIndexPolygonsHashKey indexName
  let _ ← redisModuleCall (hset polygonsHash polygonName polygonBody)
  return .ok ()

/-- `GetPolygonBody`. -/
def getPolygonBody (indexName polygonName : Bytes) : ModuleM (Ret Bytes) := do
  let polygonsHash := createIndexPolygonsHashKey indexName
  match ← redisModuleCall (hget polygonsHash polygonName) with
  | .string value => return .ok value
  | _ => return .error .noSuchPolygon

/-- `GetPolygonBodies`. -/
def getPolygonBodies (indexName : Bytes) (polygonNames : List Bytes) :
    ModuleM (Ret (CallReply Bytes)) := do
  let polygonsHash := createIndexPolygonsHashKey indexName
  match ← redisModuleCall (hmget polygonsHash polygonNames) with
  | .error _ => return .error .unknown
  | reply => return .ok reply

/-- `DeletePolygonBody` discards the reply of `HDEL`. -/
def deletePolygonBody (indexName polygonName : Bytes) : ModuleM (Ret Unit) := do
  let polygonsHash := createIndexPolygonsHashKey indexName
  let _ ← redisModuleCall (hdel polygonsHash polygonName)
  return .ok ()

/-- The second loop of `SetPolygonCells` over the array of cell strings. -/
def addToCells (indexName polygonName : Bytes) : List Bytes → ModuleM Unit
  | [] => return ()
  | cell :: rest => do
      let indexCellsHashKey := createIndexCellsSetKey indexName cell
      let _ ← redisModuleCall (sadd indexCellsHashKey [polygonName])
      addToCells indexName polygonName rest

/-- `SetPolygonCells` discards the replies of all its calls. -/
def setPolygonCells (ω : Orders) (indexName polygonName : Bytes) (cells : Finset Bytes) :
    ModuleM (Ret Unit) := do
  let cellInfoSetKey := createPolygonCellInfoSetKey indexName polygonName
  let cellStrings := ω.unorderedSet.list cells
  let _ ← redisModuleCall (sadd cellInfoSetKey cellStrings)
  addToCells indexName polygonName cellStrings
  return .ok ()

/-- The loop of `DeletePolygonCells` over the indices of the reply. -/
def removeFromCells (indexName polygonName : Bytes) (cells : CallReply Bytes) :
    List Nat → ModuleM Unit
  | [] => return ()
  | idx :: rest => do
      let cellId ← stringFromArrayElement cells idx
      let indexCellsHashKey := createIndexCellsSetKey indexName cellId
      let _ ← redisModuleCall (srem indexCellsHashKey polygonName)
      removeFromCells indexName polygonName cells rest

/-- `DeletePolygonCells` tests the length of the reply, not its type. -/
def deletePolygonCells (ω : Orders) (indexName polygonName : Bytes) : ModuleM (Ret Unit) := do
  let cellInfoSetKey := createPolygonCellInfoSetKey indexName polygonName
  let cells ← redisModuleCall (smembers (ω.smembers cellInfoSetKey) cellInfoSetKey)
  if callReplyLength cells = 0 then return .error .noSuchPolygon
  else
    let _ ← redisModuleCall (del cellInfoSetKey)
    removeFromCells indexName polygonName cells (List.range (callReplyLength cells))
    return .ok ()

/-- The loop of `DeleteIndex` over the indices of the list of polygons. -/
def deletePolygons (ω : Orders) (indexName : Bytes) (polygons : CallReply Bytes) :
    List Nat → ModuleM (Ret Unit)
  | [] => return .ok ()
  | idx :: rest => do
      let polygonName ← stringFromArrayElement polygons idx
      match ← deletePolygonBody indexName polygonName with
      | .error _ => return .error .unknown
      | .ok () =>
          match ← deletePolygonCells ω indexName polygonName with
          | .error _ => return .error .unknown
          | .ok () => deletePolygons ω indexName polygons rest

/-- `DeleteIndex` stops at the first polygon without cells. -/
def deleteIndex (ω : Orders) (indexName : Bytes) : ModuleM (Ret Unit) := do
  match ← listPolygons ω indexName with
  | .error ret => return .error ret
  | .ok polygons =>
      match ← deletePolygons ω indexName polygons (List.range (callReplyLength polygons)) with
      | .error ret => return .error ret
      | .ok () =>
          let metaHashKey := createIndexMetaHashKey indexName
          match ← redisModuleCall (del metaHashKey) with
          | .error _ => return .error .unknown
          | _ => return .ok ()

/-- `GetPolygonsInCells`. -/
def getPolygonsInCells (ω : Orders) (indexName : Bytes) (cells : Finset Bytes) :
    ModuleM (Ret (CallReply Bytes)) := do
  let cellStrings := (ω.unorderedSet.list cells).map (createIndexCellsSetKeyCStr indexName)
  match ← redisModuleCall (sunion ω.sunion cellStrings) with
  | .error _ => return .error .unknown
  | reply => return .ok reply

end RedisS2Geo.Source
