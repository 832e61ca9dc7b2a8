/-!
# Geometry parameters

The scale factors of the formulas that shape a track, the grid that is built when a request names
none, and the limit on the size of a grid.

## Main definitions

* `Raceway.Params`: the parameters, with their defaults.
-/

namespace Raceway

/-- The parameters of a track. -/
structure Params where
  /-- The lateral offset of a curve whose angle has tangent one. -/
  lateralScale : Float32 := 4
  /-- The distance between two rows. -/
  rowPitch : Float32 := 4
  /-- The width of a tile. -/
  tileWidth : Float32 := 4
  /-- The number of rows of a default grid. -/
  defaultRows : UInt32 := 100
  /-- The number of columns of a default grid. -/
  defaultCols : UInt32 := 3
  /-- The greatest number of tiles of a grid. -/
  maxTiles : UInt64 := 4000000

end Raceway
