import RedisS2Geo.Source.Environment
import Mathlib.Data.Finset.Basic

/-!
# Index and query terms of cells (`geo.cc`)

Each function turns cells into a set of strings: names of cells, prefixes of such
names, and both with a star behind them. A `std::unordered_set` is a finite set;
the order in which it is iterated is chosen where the set is used.
-/

namespace RedisS2Geo.Source
open Foundation
variable (env : Environment)

/-- `kMaxCells`. -/
def kMaxCells : Nat := 128

/-- `GetPolygonCovering`; a null polygon has the empty covering. -/
def getPolygonCovering (polygon : Option (S2Polygon env.Point)) : List S2CellId :=
  match polygon with
  | none => []
  | some polygon => env.getCovering kMaxCells polygon

/-- The values of `i` in `for (int i = 3; i < cellIdStr.length(); i++)`. -/
def prefixLengths (cellIdStr : Bytes) : List Nat := List.range' 3 (cellIdStr.length - 3)

/-- One round of the loop of `IndexPolygon`. -/
def indexPolygonRound (ret : Finset Bytes) (cellId : S2CellId) : Finset Bytes :=
  let cellIdStr := cellIdToString cellId
  let ret := insert cellIdStr ret
  -- indicates that the polygon occupies a subcell
  let ret := insert (cellIdStr.take 1 ++ ascii "*") ret
  let ret := (prefixLengths cellIdStr).foldl
    (fun ret i => insert (cellIdStr.take i ++ ascii "*") ret) ret
  insert (cellIdStr ++ ascii "*") ret

/-- `IndexPolygon`: the terms under which a polygon is stored. -/
def indexPolygon (polygon : Option (S2Polygon env.Point)) : Finset Bytes :=
  (getPolygonCovering env polygon).foldl indexPolygonRound ∅

/-- One round of the loop of `IndexPolygonForOverlapTest`. -/
def indexPolygonForOverlapTestRound (ret : Finset Bytes) (cellId : S2CellId) : Finset Bytes :=
  let cellIdStr := cellIdToString cellId
  -- will result in polygons that occupy the same cell
  let ret := insert cellIdStr ret
  -- will result in polygons that occupy (entirely) the parent cells
  let ret := insert (cellIdStr.take 1) ret
  let ret := (prefixLengths cellIdStr).foldl (fun ret i => insert (cellIdStr.take i) ret) ret
  -- will result in polygons that occupy subcells
  insert (cellIdStr ++ ascii "*") ret

/-- `IndexPolygonForOverlapTest`: the terms a query polygon is looked up with. -/
def indexPolygonForOverlapTest (polygon : Option (S2Polygon env.Point)) : Finset Bytes :=
  (getPolygonCovering env polygon).foldl indexPolygonForOverlapTestRound ∅

/-- The terms of the leaf cell of a query point. -/
def indexLeaf (cellId : S2CellId) : Finset Bytes :=
  let cellIdStr := cellIdToString cellId
  let ret : Finset Bytes := {cellIdStr.take 1}
  let ret := (prefixLengths cellIdStr).foldl (fun ret i => insert (cellIdStr.take i) ret) ret
  insert cellIdStr ret

/-- `IndexPoint`: the terms a query point is looked up with; none for a null point. -/
def indexPoint (latLng : Option env.LatLng) : Finset Bytes :=
  match latLng with
  | none => ∅
  | some latLng => indexLeaf (env.cellIdOfPoint (env.toPoint latLng))

end RedisS2Geo.Source
