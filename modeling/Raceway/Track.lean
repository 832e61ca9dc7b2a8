import Raceway.Grid.Digest
import Raceway.Grid.Removal
import Raceway.Grid.Shape
import Raceway.Op.Line
/-!
# The live track

The live track is a grid, once one has been built, and a random stream. An operation is carried out
in two steps: its arguments are checked, without a look at the grid, and then it acts on the grid.

## Main definitions

* `Raceway.Track`: a grid and a stream.
* `Raceway.ArgumentError` and `Raceway.Op.check`: the arguments that an operation accepts.
* `Raceway.Track.act`: what an operation does.
* `Raceway.Track.perform`: checking and acting.
-/

namespace Raceway

open Raceway.Random Decimal

/-- A grid, once one has been built, and a random stream. -/
structure Track where
  /-- The grid. -/
  grid : Option Grid
  /-- The stream that random operations draw from. -/
  stream : Stream

/-! ### Accepted arguments -/

/-- An argument that an operation does not accept. -/
inductive ArgumentError where
  /-- A grid without rows or columns. -/
  | emptyGrid (rows cols : UInt32)
  /-- A grid with too many tiles. -/
  | largeGrid (rows cols : UInt32) (limit : UInt64)
  /-- A chance outside of zero to a hundred percent. -/
  | percent (x : Float)
  /-- An angle that is not below a right angle. -/
  | angle (param : String) (x : Float)
  /-- Segments without rows. -/
  | emptySegment
  /-- No passes. -/
  | noPasses

/-- The wording of an argument error. -/
def ArgumentError.message : ArgumentError → String
  | emptyGrid rows cols =>
    s!"grid must have at least one row and column, got {rows.toNat}x{cols.toNat}"
  | largeGrid rows cols limit =>
    let tiles := rows.toNat * cols.toNat
    s!"{rows.toNat}x{cols.toNat} = {tiles} tiles exceeds the limit of {limit.toNat}"
  | percent x => s!"pct must lie in [0, 100], got {doubleText x}"
  | angle param x =>
    s!"{param} must lie strictly between -90 and 90 degrees, got {doubleText x}"
  | emptySegment => "segLen must be at least 1"
  | noPasses => "passes must be at least 1"

/-- Accept an angle below a right angle. -/
def checkAngle (param : String) (x : Float) : Except ArgumentError Unit :=
  if x.abs < 90 then .ok () else .error (.angle param x)

/-- Accept the arguments of an operation. -/
def Op.check (params : Params) : Op Float → Except ArgumentError Unit
  | build rows cols =>
    if rows = 0 ∨ cols = 0 then .error (.emptyGrid rows cols)
    else if rows.toNat * cols.toNat > params.maxTiles.toNat then
      .error (.largeGrid rows cols params.maxTiles)
    else .ok ()
  | randomHoles percent =>
    if 0 ≤ percent ∧ percent ≤ 100 then .ok () else .error (.percent percent)
  | curve _ _ _ degrees => checkAngle "deg" degrees
  | sBend _ _ degrees _ _ => checkAngle "deg" degrees
  | slopes low high segment => do
    if segment = 0 then .error .emptySegment
    checkAngle "minDeg" low
    checkAngle "maxDeg" high
  | smoothColumns passes => if passes = 0 then .error .noPasses else .ok ()
  | _ => .ok ()

/-! ### Acting -/

namespace Grid

/-- Protect a number of rows at the start. The count is that of the rows in the grid. -/
def setMarginStart (g : Grid) (n : UInt32) : Grid × Nat :=
  ({ g with marginStart := n }, (min n g.rows).toNat)

/-- Protect a number of rows at the end. The count is that of the rows in the grid. -/
def setMarginEnd (g : Grid) (n : UInt32) : Grid × Nat :=
  ({ g with marginEnd := n }, (min n g.rows).toNat)

/-- What an operation does to the grid that is there and to the stream, and how many tiles or rows
it affects. Operations that do not act on a grid that is there do nothing here. -/
def act (params : Params) (op : Op Float) (g : Grid) (stream : Stream) : Grid × Stream × Nat :=
  match op with
  | .deleteRows a b => keep (g.deleteRows a b)
  | .deleteTiles cols row => keep (g.deleteTiles cols row)
  | .randomHoles percent => g.randomHoles percent stream
  | .jumpGaps n => keep (g.jumpGaps Float n)
  | .curve a b side degrees => keep (g.curve params a b side degrees)
  | .sBend a b degrees gain ratio => keep (g.sBend params a b degrees gain ratio)
  | .slopes low high segment => g.slopes params low high segment stream
  | .marginStart n => keep (g.setMarginStart n)
  | .marginEnd n => keep (g.setMarginEnd n)
  | .smoothColumns passes => keep (g.smoothColumns passes)
  | _ => (g, stream, 0)
where
  /-- A change of the grid that leaves the stream as it is. -/
  keep (r : Grid × Nat) : Grid × Stream × Nat :=
    (r.1, stream, r.2)

end Grid

namespace Track

/-- What an operation does to the live track, and how many tiles or rows it affects. Without a grid,
only the operation that builds one does anything. -/
def act (params : Params) (op : Op Float) (t : Track) : Track × Nat :=
  match op, t.grid with
  | .build rows cols, _ => (⟨some (Grid.full rows cols), t.stream⟩, rows.toNat * cols.toNat)
  | _, none => (t, 0)
  | op, some g =>
    let (g, stream, affected) := g.act params op t.stream
    (⟨some g, stream⟩, affected)

/-- Check the arguments of an operation and carry it out. -/
def perform (params : Params) (op : Op Float) (t : Track) : Except ArgumentError (Track × Nat) := do
  op.check params
  return t.act params op

/-- Restart the stream from a seed. -/
def reseed (t : Track) (seed : UInt64) : Track :=
  ⟨t.grid, Stream.ofSeed seed⟩

/-- The number of tiles. -/
def tileCount (t : Track) : Nat :=
  (t.grid.map Grid.tileCount).getD 0

/-- The digest of the grid. -/
def digest (t : Track) : UInt32 :=
  digestOf t.grid

end Track

end Raceway
