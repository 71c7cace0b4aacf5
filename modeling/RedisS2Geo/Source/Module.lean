import RedisS2Geo.Source.Index

/-!
# The ten commands (`module.cc`)

A handler gets the arguments behind the command name, checks their number and
sends exactly one reply.
-/

namespace RedisS2Geo.Source
open Foundation

/-- The reply sent to the client. -/
inductive Reply where
  | error (text : String)
  | null
  | simpleString (text : String)
  | integer (n : Int)
  | bulkString (s : Bytes)
  | array (items : List (Option Bytes))
  deriving DecidableEq

/-- `REDISMODULE_OK` and `REDISMODULE_ERR`. -/
inductive Status where
  | ok
  | err
  deriving DecidableEq

/-- The reply of a handler and its return value. -/
structure Outcome where
  reply : Reply
  status : Status
  deriving DecidableEq

/-- `RedisModule_ReplyWithError` and `return REDISMODULE_ERR`. -/
def replyWithError (text : String) : Outcome := ⟨.error text, .err⟩

/-- `RedisModule_ReplyWithNull`. -/
def replyWithNull : Outcome := ⟨.null, .ok⟩

/-- `RedisModule_ReplyWithSimpleString`. -/
def replyWithSimpleString (text : String) : Outcome := ⟨.simpleString text, .ok⟩

/-- `RedisModule_ReplyWithLongLong`. -/
def replyWithLongLong (n : Int) : Outcome := ⟨.integer n, .ok⟩

/-- `RedisModule_ReplyWithString`. -/
def replyWithString (s : Bytes) : Outcome := ⟨.bulkString s, .ok⟩

/-- `RedisModule_ReplyWithArray` followed by its items. -/
def replyWithArray (items : List (Option Bytes)) : Outcome := ⟨.array items, .ok⟩

/-- `RedisModule_ReplyWithCallReply`. -/
def replyWithCallReply : CallReply Bytes → Outcome
  | .nil => ⟨.null, .ok⟩
  | .string s => ⟨.bulkString s, .ok⟩
  | .integer n => ⟨.integer n, .ok⟩
  | .array items => ⟨.array items, .ok⟩
  | .error text => ⟨.error text, .ok⟩

/-- `return RedisModule_WrongArity(ctx)`. Redis composes the text and puts the name of the
command into it; the text here only stands for it. -/
def wrongArity : Outcome := ⟨.error "wrong number of arguments", .ok⟩

/-- `SetIndexCommand`. -/
def setIndexCommand : List Bytes → ModuleM Outcome
  | [indexName] => do
      let .ok () := validateEntityName indexName
        | return replyWithError "invalid index name"
      let .error .noSuchIndex ← validateIndex indexName
        | return replyWithError "index already exists"
      let .ok () ← createIndex indexName
        | return replyWithError "error while creating index"
      return replyWithSimpleString "OK"
  | _ => return wrongArity

/-- `GetIndexCommand`. -/
def getIndexCommand : List Bytes → ModuleM Outcome
  | [indexName] => do
      let .ok () := validateEntityName indexName
        | return replyWithError "invalid index name"
      match ← validateIndex indexName with
      | .error .noSuchIndex => return replyWithNull
      | .error .invalidIndex => return replyWithError "not an index"
      | .error _ => return replyWithError "unknown error"
      | .ok () => return replyWithSimpleString "OK"
  | _ => return wrongArity

/-- `DeleteIndexCommand`. -/
def deleteIndexCommand (ω : Orders) : List Bytes → ModuleM Outcome
  | [indexName] => do
      let .ok () := validateEntityName indexName
        | return replyWithError "invalid index name"
      match ← validateIndex indexName with
      | .error .noSuchIndex => return replyWithLongLong 0
      | .error .invalidIndex => return replyWithError "not an index"
      | .error _ => return replyWithError "unknown error during index validation"
      | .ok () =>
          let .ok () ← deleteIndex ω indexName
            | return replyWithError "failed to delete the index"
          return replyWithLongLong 1
  | _ => return wrongArity

/-- `SetPolygonCommand`. -/
def setPolygonCommand (env : Environment) (ω : Orders) : List Bytes → ModuleM Outcome
  | [indexName, polygonName, polygonBody] => do
      let .ok () := validateEntityName indexName
        | return replyWithError "invalid index name"
      let .ok () := validateEntityName polygonName
        | return replyWithError "invalid polygon name"
      let .ok () ← validateIndex indexName
        | return replyWithError "invalid index"
      let some polygon := parsePolygon env polygonBody
        | return replyWithError "invalid polygon"
      let cells := indexPolygon env (some polygon)
      if cells.card = 0 then
        return replyWithError "empty cell union for a given polygon"
      let .ok () ← setPolygonBody indexName polygonName polygonBody
        | return replyWithError "error while storing polygon body"
      match ← deletePolygonCells ω indexName polygonName with
      | .ok () | .error .noSuchPolygon =>
          let .ok () ← setPolygonCells ω indexName polygonName cells
            | return replyWithError "error while storing polygon cells"
          return replyWithLongLong 1
      | .error _ => return replyWithError "error while deleting polygon cells"
  | _ => return wrongArity

/-- `GetPolygonCommand`. -/
def getPolygonCommand : List Bytes → ModuleM Outcome
  | [indexName, polygonName] => do
      let .ok () := validateEntityName indexName
        | return replyWithError "invalid index name"
      let .ok () := validateEntityName polygonName
        | return replyWithError "invalid polygon name"
      match ← validateIndex indexName with
      | .error .noSuchIndex => return replyWithNull
      | .error _ => return replyWithError "invalid index"
      | .ok () =>
          match ← getPolygonBody indexName polygonName with
          | .error .noSuchPolygon => return replyWithNull
          | .error _ => return replyWithError "invalid polygon"
          | .ok polygonBody => return replyWithString polygonBody
  | _ => return wrongArity

/-- `GetMultiplePolygonsCommand`. -/
def getMultiplePolygonsCommand : List Bytes → ModuleM Outcome
  | indexName :: polygonName :: rest => do
      let polygonNames := polygonName :: rest
      let .ok () := validateEntityName indexName
        | return replyWithError "invalid index name"
      if polygonNames.any fun name => validateEntityName name ≠ .ok () then
        return replyWithError "invalid polygon name"
      match ← validateIndex indexName with
      | .error .noSuchIndex => return replyWithArray (polygonNames.map fun _ => none)
      | .error _ => return replyWithError "invalid index"
      | .ok () =>
          let .ok reply ← getPolygonBodies indexName polygonNames
            | return replyWithError "invalid polygon"
          return replyWithCallReply reply
  | _ => return wrongArity

/-- `DeletePolygonCommand`. -/
def deletePolygonCommand (ω : Orders) : List Bytes → ModuleM Outcome
  | [indexName, polygonName] => do
      let .ok () := validateEntityName indexName
        | return replyWithError "invalid index name"
      let .ok () := validateEntityName polygonName
        | return replyWithError "invalid polygon name"
      match ← validateIndex indexName with
      | .error .noSuchIndex => return replyWithLongLong 0
      | .error _ => return replyWithError "invalid index"
      | .ok () =>
          let .ok () ← deletePolygonBody indexName polygonName
            | return replyWithError "polygon deletion failed"
          match ← deletePolygonCells ω indexName polygonName with
          | .error .noSuchPolygon => return replyWithLongLong 0
          | .error _ => return replyWithError "polygon cells deletion failed"
          | .ok () => return replyWithLongLong 1
  | _ => return wrongArity

/-- `ListPolygonsCommand`. -/
def listPolygonsCommand (ω : Orders) : List Bytes → ModuleM Outcome
  | [indexName] => do
      let .ok () := validateEntityName indexName
        | return replyWithError "invalid index name"
      match ← validateIndex indexName with
      | .error .noSuchIndex => return replyWithArray []
      | .error _ => return replyWithError "invalid index"
      | .ok () =>
          let .ok polygons ← listPolygons ω indexName
            | return replyWithError "error while fetching polygons"
          return replyWithCallReply polygons
  | _ => return wrongArity

/-- `SearchPolygonCommand`. -/
def searchPolygonCommand (env : Environment) (ω : Orders) : List Bytes → ModuleM Outcome
  | [indexName, polygonBody] => do
      let .ok () := validateEntityName indexName
        | return replyWithError "invalid index name"
      let .ok () ← validateIndex indexName
        | return replyWithError "invalid index"
      let some polygon := parsePolygon env polygonBody
        | return replyWithError "invalid polygon"
      let cells := indexPolygonForOverlapTest env (some polygon)
      if cells.card = 0 then
        return replyWithError "empty cell union for a given polygon"
      let .ok polygons ← getPolygonsInCells ω indexName cells
        | return replyWithError "error while fetching polygons"
      return replyWithCallReply polygons
  | _ => return wrongArity

/-- `SearchPointCommand`. -/
def searchPointCommand (env : Environment) (ω : Orders) : List Bytes → ModuleM Outcome
  | [indexName, pointBody] => do
      let .ok () := validateEntityName indexName
        | return replyWithError "invalid index name"
      let .ok () ← validateIndex indexName
        | return replyWithError "invalid index"
      let some point := parseLatLng env pointBody
        | return replyWithError "invalid point"
      let cells := indexPoint env (some point)
      if cells.card = 0 then
        return replyWithError "no cells for a given point"
      let .ok polygons ← getPolygonsInCells ω indexName cells
        | return replyWithError "error while fetching polygons"
      return replyWithCallReply polygons
  | _ => return wrongArity

/-- The names under which `RedisModule_OnLoad` registers the commands. -/
inductive CommandName where
  | iset
  | iget
  | idel
  | polyset
  | polyget
  | polymget
  | polydel
  | polylist
  | polysearch
  | pointsearch
  deriving DecidableEq

/-- A command with its arguments. -/
structure Command where
  name : CommandName
  args : List Bytes
  deriving DecidableEq

/-- Run the handler registered for a command. -/
def exec (env : Environment) (ω : Orders) (c : Command) : ModuleM Outcome :=
  match c.name with
  | .iset => setIndexCommand c.args
  | .iget => getIndexCommand c.args
  | .idel => deleteIndexCommand ω c.args
  | .polyset => setPolygonCommand env ω c.args
  | .polyget => getPolygonCommand c.args
  | .polymget => getMultiplePolygonsCommand c.args
  | .polydel => deletePolygonCommand ω c.args
  | .polylist => listPolygonsCommand ω c.args
  | .polysearch => searchPolygonCommand env ω c.args
  | .pointsearch => searchPointCommand env ω c.args

/-! ### Registration -/

/-- The arguments of `RedisModule_CreateCommand` besides the handler. -/
structure Registration where
  name : String
  flags : String
  firstKey : Nat
  lastKey : Nat
  keyStep : Nat
  deriving DecidableEq

/-- How `RedisModule_OnLoad` registers each command. -/
def registration : CommandName → Registration
  | .iset => ⟨"s2geo.iset", "write", 1, 1, 1⟩
  | .iget => ⟨"s2geo.iget", "readonly", 1, 1, 1⟩
  | .idel => ⟨"s2geo.idel", "write", 1, 1, 1⟩
  | .polyset => ⟨"s2geo.polyset", "write", 1, 1, 1⟩
  | .polyget => ⟨"s2geo.polyget", "readonly", 1, 1, 1⟩
  | .polymget => ⟨"s2geo.polymget", "readonly", 1, 1, 1⟩
  | .polydel => ⟨"s2geo.polydel", "write", 1, 1, 1⟩
  | .polylist => ⟨"s2geo.polylist", "readonly", 1, 1, 1⟩
  | .polysearch => ⟨"s2geo.polysearch", "readonly", 1, 1, 1⟩
  | .pointsearch => ⟨"s2geo.pointsearch", "readonly", 1, 1, 1⟩

end RedisS2Geo.Source
