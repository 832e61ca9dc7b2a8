import Raceway.Json.Reader
import Raceway.Params
/-!
# Parameters as documents

Parameters are written as an object of all their fields. Fields that a document leaves out keep
their defaults.

## Main definitions

* `Raceway.Params.document`: the document of parameters.
* `Raceway.Params.ofText`: parameters from the text of a document.
-/

namespace Raceway.Params

open Json

/-- The document of parameters. -/
def document (p : Params) : Node :=
  .object [("lateral_scale", .single p.lateralScale), ("row_pitch", .single p.rowPitch),
    ("tile_width", .single p.tileWidth), ("default_rows", .int p.defaultRows.toNat),
    ("default_cols", .int p.defaultCols.toNat), ("max_tiles", .int p.maxTiles.toNat)]

/-- The fields of a document of parameters. -/
def fields : List (Reader.Field Params) :=
  [⟨"lateral_scale", fun p => return { p with lateralScale := ← Reader.single }, true⟩,
    ⟨"row_pitch", fun p => return { p with rowPitch := ← Reader.single }, true⟩,
    ⟨"tile_width", fun p => return { p with tileWidth := ← Reader.single }, true⟩,
    ⟨"default_rows",
      fun p => return { p with defaultRows := UInt32.ofNat (← Reader.word 32) }, true⟩,
    ⟨"default_cols",
      fun p => return { p with defaultCols := UInt32.ofNat (← Reader.word 32) }, true⟩,
    ⟨"max_tiles", fun p => return { p with maxTiles := UInt64.ofNat (← Reader.word 64) }, true⟩]

/-- Read parameters. -/
def ofText (text : List Char) : Except ReadError Params :=
  Reader.run (Reader.record "parameters" fields {}) text

end Raceway.Params
