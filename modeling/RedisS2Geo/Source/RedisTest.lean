import RedisS2Geo.Foundation.Scripts
import RedisS2Geo.Source.Module

/-!
# The commands of a DEBUG build (`redistest.cc`)

`s2geo.test` calls the commands of the module on an index of its own and checks their
replies; `s2geo.populate` leaves this index in the database.

## Implementation notes

A function of the test is the list of its calls with the assertions on each reply. An
assertion that fails ends the command with its message, without the file, the line and
the values that the macros add to it. `KEYS` is a parameter: what it lists on each
keyspace for the pattern of the test. Lengths and integers are taken to fit a C `int`.
-/

namespace RedisS2Geo.Source
open Foundation

/-! ### Replies and assertions -/

/-- `REDISMODULE_REPLY_STRING` and the other types of a call reply. -/
inductive ReplyType where
  | string
  | error
  | integer
  | array
  | null
  | unknown
  deriving DecidableEq

/-- `RedisModule_CallReplyType`, where `none` is the null pointer. -/
def callReplyType : Option (CallReply Bytes) → ReplyType
  | none => .unknown
  | some .nil => .null
  | some (.string _) => .string
  | some (.integer _) => .integer
  | some (.array _) => .array
  | some (.error _) => .error

/-- The call reply for what a handler has sent. -/
def callReplyOf : Reply → CallReply Bytes
  | .error text => .error text
  | .null => .nil
  | .simpleString text => .string (ascii text)
  | .integer n => .integer n
  | .bulkString s => .string s
  | .array items => .array items

/-- `RedisModule_CallReplyInteger`, which is the least `long long` for other types. -/
def callReplyInteger : CallReply Bytes → Int
  | .integer n => n
  | _ => -2 ^ 63

/-- `RedisModule_CallReplyStringPtr`, which is null for other types. -/
def callReplyStringPtr : CallReply Bytes → Option Bytes
  | .string s => some s
  | .error text => some (ascii text)
  | _ => none

/-- `RedisModule_CallReplyArrayElement`. -/
def callReplyArrayElement (reply : CallReply Bytes) (idx : Nat) : Option (CallReply Bytes) :=
  match reply with
  | .array items => items[idx]?.map fun item => item.elim .nil .string
  | _ => none

/-- `strncmp(s, expected, len) == 0` for a string of this length. -/
def strncmpEq (s expected : Bytes) : Bool :=
  if 0 ∈ s then cString s == cString expected else s.isPrefixOf (cString expected)

/-- `ASSERT_REDIS_TYPE_EQUAL`. -/
def assertRedisTypeEqual (msg : String) (expected : ReplyType)
    (found : Option (CallReply Bytes)) : ExceptT String Option Unit :=
  if callReplyType found ≠ expected then throw msg else pure ()

/-- `ASSERT_INT_EQUAL`. -/
def assertIntEqual (msg : String) (expected found : Int) : ExceptT String Option Unit :=
  if found ≠ expected then throw msg else pure ()

/-- `ASSERT_SET_EQUAL`. -/
def assertSetEqual (msg : String) (expected found : Finset Bytes) : ExceptT String Option Unit :=
  if found ≠ expected then throw msg else pure ()

/-- `ASSERT_REDIS_STRING_EQUAL`; a null pointer is dereferenced. -/
def assertRedisStringEqual (msg : String) (expected : Bytes)
    (found : Option (CallReply Bytes)) : ExceptT String Option Unit :=
  match found.bind callReplyStringPtr with
  | none => ExceptT.mk none
  | some s => if ¬ strncmpEq s expected then throw msg else pure ()

/-- `RedisArrayToSet`; no string can be made of the null pointer for an element that is
not there or is null. -/
def redisArrayToSet (array : CallReply Bytes) : ExceptT String Option (Finset Bytes) :=
  let elements := (List.range (callReplyLength array)).mapM fun i =>
    (callReplyArrayElement array i).bind callReplyStringPtr
  ExceptT.mk (elements.map fun names => .ok names.toFinset)

/-- `(int)RedisModule_CallReplyLength`. -/
def intLength (reply : CallReply Bytes) : Int := callReplyLength reply

/-! ### Test data -/

/-- `kTestIndexName`. -/
def kTestIndexName : Bytes := ascii "testindex"

/-- `kTestIndexPattern`. -/
def kTestIndexPattern : Bytes := ascii "testindex:*"

/-- `enum Polygons`. -/
inductive TestPolygon where
  | red
  | green
  | blue
  | yellow
  deriving DecidableEq

/-- The indices below `POLYGON_COUNT`. -/
def testPolygonList : List TestPolygon := [.red, .green, .blue, .yellow]

/-- `kPolygonBody`. -/
def kPolygonBody : TestPolygon → Bytes
  | .red =>
      ascii "[[[-109.072265625,37.055177106660814],[-101.97509765625,37.055177106660814]," ++
        ascii "[-101.97509765625,41.0130657870063],[-109.072265625,41.0130657870063]," ++
        ascii "[-109.072265625,37.055177106660814]]]"
  | .green =>
      ascii "[[[-104.12841796875,38.151837403006766],[-99.66796875,38.151837403006766]," ++
        ascii "[-99.66796875,39.67337039176558],[-104.12841796875,39.67337039176558]," ++
        ascii "[-104.12841796875,38.151837403006766]]]"
  | .blue =>
      ascii "[[[-97.734375,36.77409249464195],[-94.10888671875,36.77409249464195]," ++
        ascii "[-94.10888671875,41.29431726315258],[-97.734375,41.29431726315258]," ++
        ascii "[-97.734375,36.77409249464195]]]"
  | .yellow =>
      ascii "[[[-107.57812499999999,38.496593518947584]," ++
        ascii "[-106.74316406249999,38.496593518947584]," ++
        ascii "[-106.74316406249999,39.232253141714885]," ++
        ascii "[-107.57812499999999,39.232253141714885]," ++
        ascii "[-107.57812499999999,38.496593518947584]]]"

/-- `kPolygonName`. -/
def kPolygonName : TestPolygon → Bytes
  | .red => ascii "red"
  | .green => ascii "green"
  | .blue => ascii "blue"
  | .yellow => ascii "yellow"

/-- `enum Points`. -/
inductive TestPoint where
  | circle
  | triangle
  | square
  deriving DecidableEq

/-- `kPointBody`. -/
def kPointBody : TestPoint → Bytes
  | .circle => ascii "[-99.8876953125,36.06686213257888]"
  | .triangle => ascii "[-103.798828125,40.54720023441049]"
  | .square => ascii "[-107.1826171875,38.92522904714054]"

/-- The query around all polygons in `TestPolygonSearch`. -/
def surroundingBody : Bytes :=
  ascii "[[[-108.272066,36.255106],[-94.099703,36.255106],[-94.099703,41.666532]," ++
    ascii "[-108.272066,41.666532],[-108.272066,36.255106]]]"

/-! ### The test functions -/

/-- A call of a command of the module on the test index, and the assertions on its reply. -/
abbrev TestCall := Command × (Outcome → Checked String)

/-- `RedisModule_Call` on the test index with these arguments behind its name. -/
def testCall (name : CommandName) (args : List Bytes)
    (assertions : CallReply Bytes → ExceptT String Option Unit) : TestCall :=
  (⟨name, kTestIndexName :: args⟩, fun o => (assertions (callReplyOf o.reply)).run)

/-- The call that creates the index at the start of every function. -/
def createTestIndex : TestCall :=
  testCall .iset [] fun reply => do
    assertRedisTypeEqual "could not create the index" .string reply
    assertRedisStringEqual "could not create the index" (ascii "OK") reply

/-- The call that deletes the index. -/
def deleteTestIndex : TestCall :=
  testCall .idel [] fun reply => do
    assertRedisTypeEqual "could not delete the index" .integer reply
    assertIntEqual "could not delete the index" 1 (callReplyInteger reply)

/-- The loop that sets up all polygons. -/
def setUpPolygons : List TestCall :=
  testPolygonList.map fun idx =>
    testCall .polyset [kPolygonName idx, kPolygonBody idx] fun reply => do
      assertRedisTypeEqual "could not create the polygon" .integer reply
      assertIntEqual "could not create the polygon" 1 (callReplyInteger reply)

/-- The assertions on a listing: its type, its length and its elements. -/
def assertFound (typeMsg countMsg setMsg : String) (count : Nat) (expected : Finset Bytes)
    (reply : CallReply Bytes) : ExceptT String Option Unit := do
  assertRedisTypeEqual typeMsg .array reply
  assertIntEqual countMsg count (intLength reply)
  assertSetEqual setMsg expected (← redisArrayToSet reply)

/-- `TestIndex`. -/
def testIndex : List TestCall :=
  [createTestIndex,
    testCall .iset [] fun reply =>
      assertRedisTypeEqual "should not overwrite the index" .error reply,
    testCall .iget [] fun reply => do
      assertRedisTypeEqual "could not fetch the index" .string reply
      assertRedisStringEqual "could not fetch the index" (ascii "OK") reply,
    deleteTestIndex,
    testCall .idel [] fun reply => do
      assertRedisTypeEqual "should not delete the index" .integer reply
      assertIntEqual "should not delete the index" 0 (callReplyInteger reply),
    testCall .iget [] fun reply =>
      assertRedisTypeEqual "should not fetch the index" .null reply]

/-- `TestPolygons`. -/
def testPolygons : List TestCall :=
  createTestIndex ::
    testCall .polylist [] (fun reply => do
      assertRedisTypeEqual "could not list polygons" .array reply
      assertIntEqual "incorrect number of polygons returned" 0 (intLength reply)) ::
    (setUpPolygons ++
      [testCall .polylist []
          (assertFound "could not list polygons" "incorrect number of polygons returned"
            "incorrect polygons returned" 4
            {kPolygonName .red, kPolygonName .green, kPolygonName .blue, kPolygonName .yellow}),
        testCall .polymget (testPolygonList.map kPolygonName)
          (assertFound "could not fetch the polygon bodies"
            "incorrect number of polygon bodies returned" "incorrect polygon bodies returned" 4
            {kPolygonBody .red, kPolygonBody .green, kPolygonBody .blue, kPolygonBody .yellow}),
        testCall .polyget [kPolygonName .red] fun reply => do
          assertRedisTypeEqual "could not fetch the polygon" .string reply
          assertRedisStringEqual "could not fetch the polygon" (kPolygonBody .red) reply,
        testCall .polydel [kPolygonName .red] fun reply =>
          assertRedisTypeEqual "could not delete the polygon" .integer reply,
        testCall .polyget [kPolygonName .red] fun reply =>
          assertRedisTypeEqual "should not fetch the polygon" .null reply,
        testCall .polydel [kPolygonName .red] fun reply => do
          assertRedisTypeEqual "should not delete the polygon" .integer reply
          assertIntEqual "should not delete the polygon" 0 (callReplyInteger reply),
        testCall .polymget [kPolygonName .red, kPolygonName .blue] fun reply => do
          assertRedisTypeEqual "should return array of bodies" .array reply
          assertIntEqual "incorrect number of polygon bodies returned" 2 (intLength reply)
          assertRedisTypeEqual "should return null as a polygon body" .null
            (callReplyArrayElement reply 0)
          assertRedisTypeEqual "should return correct polygon body" .string
            (callReplyArrayElement reply 1)
          assertRedisStringEqual "should return correct polygon body" (kPolygonBody .blue)
            (callReplyArrayElement reply 1),
        deleteTestIndex,
        testCall .polyget [kPolygonName .red] fun reply =>
          assertRedisTypeEqual "should not fetch the polygon" .null reply,
        testCall .polymget [kPolygonName .red] fun reply => do
          assertRedisTypeEqual "should return array of bodies" .array reply
          assertIntEqual "incorrect number of polygon bodies returned" 1 (intLength reply)
          assertRedisTypeEqual "should return null as a polygon body" .null
            (callReplyArrayElement reply 0),
        testCall .polylist [] fun reply => do
          assertRedisTypeEqual "could not list polygons" .array reply
          assertIntEqual "incorrect number of polygons returned" 0 (intLength reply)])

/-- `TestPointSearch`. -/
def testPointSearch : List TestCall :=
  let found := assertFound "could not perform point search" "wrong point search response"
    "wrong point search response"
  createTestIndex :: (setUpPolygons ++
    [testCall .pointsearch [kPointBody .circle] fun reply => do
        assertRedisTypeEqual "could not perform point search" .array reply
        assertIntEqual "wrong point search response" 0 (intLength reply),
      testCall .pointsearch [kPointBody .triangle] (found 1 {kPolygonName .red}),
      testCall .pointsearch [kPointBody .square]
        (found 2 {kPolygonName .red, kPolygonName .yellow}),
      deleteTestIndex,
      testCall .pointsearch [kPointBody .square] fun reply =>
        assertRedisTypeEqual "should not perform point search" .error reply])

/-- `TestPolygonSearch`. -/
def testPolygonSearch : List TestCall :=
  let found := assertFound "could not perform polygon search" "wrong polygon search response"
    "wrong polygon search response"
  createTestIndex :: (setUpPolygons ++
    ([testCall .polysearch [kPolygonBody .red]
        (found 3 {kPolygonName .red, kPolygonName .yellow, kPolygonName .green}),
      testCall .polysearch [kPolygonBody .green]
        (found 2 {kPolygonName .green, kPolygonName .red}),
      testCall .polysearch [kPolygonBody .blue] (found 1 {kPolygonName .blue}),
      testCall .polysearch [kPolygonBody .yellow]
        (found 2 {kPolygonName .yellow, kPolygonName .red}),
      testCall .polysearch [surroundingBody]
        (found 4 {kPolygonName .yellow, kPolygonName .red, kPolygonName .blue,
          kPolygonName .green})] ++
    (testPolygonList.map (fun idx =>
      testCall .polydel [kPolygonName idx] fun reply => do
        assertRedisTypeEqual "could not delete the polygon" .integer reply
        assertIntEqual "could not delete the polygon" 1 (callReplyInteger reply)) ++
    [testCall .polysearch [kPolygonBody .yellow] fun reply => do
        assertRedisTypeEqual "could not perform polygon search" .array reply
        assertIntEqual "wrong poly polygon response" 0 (intLength reply),
      deleteTestIndex,
      testCall .polysearch [kPolygonBody .yellow] fun reply =>
        assertRedisTypeEqual "should not perform polygon search" .error reply])))

/-! ### The two commands -/

/-- What `KEYS` lists on each keyspace for the pattern of the test. -/
abbrev TestKeys := Keyspace Bytes → List Bytes

/-- `ValidateTestCondition`. -/
def validateTestCondition (keys : TestKeys) (message : String) :
    ModuleM (Except String Unit) := do
  let reply ← redisModuleCall fun K => (.array ((keys K).map some), K)
  let assertions : ExceptT String Option Unit := do
    assertRedisTypeEqual message .array reply
    assertIntEqual message 0 (intLength reply)
  fun K => assertions.run.map fun verdict => (verdict, K)

/-- Make the calls, each with the orders chosen for it. -/
def runCalls (env : Environment) (orders : Nat → Orders) (calls : List TestCall) :
    ModuleM (Except String Unit) :=
  runScript (fun l : Orders × Command => exec env l.1 l.2)
    (calls.mapIdx fun n call => ((orders n, call.1), call.2))

/-- `RedisModule_ReplyWithCString`. -/
def replyWithCString (s : String) : Outcome := ⟨.bulkString (ascii s), .ok⟩

/-- The calls of the four functions, one after the other. -/
def selfTest : List TestCall := testIndex ++ testPolygons ++ testPointSearch ++ testPolygonSearch

/-- `TestCommand`. -/
def testCommand (env : Environment) (orders : Nat → Orders) (keys : TestKeys) :
    ModuleM Outcome := do
  match ← validateTestCondition keys "could not start the test: stale data detected" with
  | .error e => return replyWithError e
  | .ok () =>
      match ← runCalls env orders selfTest with
      | .error e => return replyWithError e
      | .ok () =>
          match ← validateTestCondition keys "test failed: orphaned data detected" with
          | .error e => return replyWithError e
          | .ok () => return replyWithCString "OK"

/-- `PopulateCommand`. -/
def populateCommand (env : Environment) (orders : Nat → Orders) : ModuleM Outcome := do
  match ← runCalls env orders (createTestIndex :: setUpPolygons) with
  | .error e => return replyWithError e
  | .ok () => return replyWithCString "OK"

end RedisS2Geo.Source
