import RedisS2Geo.Foundation.ByteString
import RedisS2Geo.Foundation.CellForest

/-!
# What the module takes from S2 and from the C library

Cell ids are the cells of a forest with six faces and four children per cell, of
depth 30. Floating point numbers, points and the region coverer are left open:
the module hands their values on without looking inside.

## Implementation notes

`strtod` reads a C string and returns a value with the number of bytes it read,
zero when there is no numeral. A covering is an arbitrary list of valid cells,
since the module only bounds the number of cells it asks for.
-/

namespace RedisS2Geo.Source
open Foundation

/-- `S2CellId::kMaxLevel`. -/
def kMaxLevel : Nat := 30

/-- A valid `S2CellId`: a face and one child position for each level. -/
abbrev S2CellId := Cell (Fin 6) (Fin 4) kMaxLevel

/-- The decimal digit of a small number. -/
def digit {n : Nat} (d : Fin n) : UInt8 := UInt8.ofNat (48 + d)

/-- `S2CellId::ToString`: the face digit, a slash and one digit for each level. -/
def cellIdToString (cellId : S2CellId) : Bytes :=
  digit cellId.root :: chr '/' :: cellId.path.map digit

/-- An `S2Loop` as its list of vertices. -/
abbrev S2Loop (Point : Type) := List Point

/-- An `S2Polygon` as its list of loops. -/
structure S2Polygon (Point : Type) where
  loops : List (S2Loop Point)
  deriving DecidableEq

/-- The library functions that the module calls. -/
structure Environment where
  /-- The type `double`. -/
  Double : Type
  /-- What a `double` variable holds before the first assignment. -/
  indeterminate : Double
  /-- The value of the longest numeral at the start, and its length. -/
  strtod : Bytes → Double × Nat
  /-- The type `S2LatLng`. -/
  LatLng : Type
  /-- `S2LatLng::FromDegrees`, latitude first. -/
  fromDegrees : Double → Double → LatLng
  /-- `S2LatLng::is_valid`. -/
  isValid : LatLng → Bool
  /-- The type `S2Point`. -/
  Point : Type
  /-- `S2LatLng::ToPoint`. -/
  toPoint : LatLng → Point
  /-- `==` on points; it need not be reflexive. -/
  pointEq : Point → Point → Bool
  /-- `S2RegionCoverer::GetCovering` with the given `max_cells`. -/
  getCovering : Nat → S2Polygon Point → List S2CellId
  /-- The constructor `S2CellId(S2Point)`, which returns a leaf. -/
  cellIdOfPoint : Point → {cellId : S2CellId // cellId.IsLeaf}

/-! ### A small environment -/

/-- The bytes of decimal numerals. -/
def isNumeralByte (c : UInt8) : Bool := (chr '0' ≤ c && c ≤ chr '9') || (ascii "+-.e").contains c

/-- The longest numeral at the start of a text. -/
def numeral (s : Bytes) : Bytes := s.takeWhile isNumeralByte

/-- The six face cells. -/
def faces : List S2CellId := (List.finRange 6).map fun f => ⟨f, [], Nat.zero_le _⟩

/-- The leaf cell of latitude and longitude zero. -/
def leafOfOrigin : {cellId : S2CellId // cellId.IsLeaf} :=
  ⟨⟨0, 2 :: List.replicate 29 0, by decide⟩, rfl⟩

/-- A triangle inside that leaf cell; a point is its latitude and its longitude. -/
def smallTriangle : S2Polygon (Bytes × Bytes) :=
  ⟨[[(ascii "1e-9", ascii "1e-9"), (ascii "1e-9", ascii "3e-9"), (ascii "3e-9", ascii "1e-9")]]⟩

/-- Numbers are kept as their numerals and every point is at the origin. The small
triangle is covered by the leaf cell around it and every other polygon by the six faces,
as one is whose complement is smaller than a cell. -/
def sampleEnvironment : Environment where
  Double := Bytes
  indeterminate := []
  strtod s := (numeral s, (numeral s).length)
  LatLng := Bytes × Bytes
  fromDegrees latitude longitude := (latitude, longitude)
  isValid _ := true
  Point := Bytes × Bytes
  toPoint := id
  pointEq a b := decide (a = b)
  getCovering _ polygon :=
    if polygon.loops.isEmpty then []
    else if polygon = smallTriangle then [leafOfOrigin.1]
    else faces
  cellIdOfPoint _ := leafOfOrigin

end RedisS2Geo.Source
