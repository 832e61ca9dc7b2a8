/-!
# Track operations

A track is described by a list of operations. Each one builds the grid of tiles, removes tiles,
shapes the lateral offset or the height of the tiles that are left, sets the protected margins or
the seed of the random stream. Three composite operations stand for groups of simpler ones, and
three fill directives cancel earlier removals instead of acting on the grid.

The type is parametric in the numbers that measure angles, shares and gaps, so that the same
operations can be read over floating-point numbers and over exact ones.

## Main definitions

* `Raceway.Op`: an operation with its arguments.
* `Raceway.Verb`: an operation without its arguments, with its written name.
* `Raceway.OpRole`: how an operation takes part in an edit.
* `Raceway.Op.deletedRows`: the rows in which an operation deletes.
-/

namespace Raceway

/-! ### Operations -/

/-- The side towards which a curve leans; the right one is the positive lateral direction. -/
inductive Side where
  | left
  | right
deriving DecidableEq, Repr

/-- An operation on a track. Rows are counted from zero and columns from one. -/
inductive Op (α : Type) where
  /-- Replace the grid by a full one. -/
  | build (rows cols : UInt32)
  /-- Remove the tiles of the rows between two rows, both included. -/
  | deleteRows (a b : UInt32)
  /-- Remove the tiles of some columns in a row. -/
  | deleteTiles (cols : List UInt32) (row : UInt32)
  /-- Remove each unprotected tile with a chance given in percent. -/
  | randomHoles (percent : α)
  /-- Remove a number of evenly spaced rows. -/
  | jumpGaps (count : UInt32)
  /-- Lean the rows between two rows to a side. -/
  | curve (a b : UInt32) (side : Side) (degrees : α)
  /-- Bend the rows between two rows out and back in two lobes. -/
  | sBend (a b : UInt32) (degrees gain ratio : α)
  /-- Raise the rows along segments of random slope. -/
  | slopes (low high : α) (segment : UInt32)
  /-- Protect a number of rows at the start. -/
  | marginStart (count : UInt32)
  /-- Protect a number of rows at the end. -/
  | marginEnd (count : UInt32)
  /-- Smooth the heights along each column. -/
  | smoothColumns (passes : UInt32)
  /-- Seed the random stream. -/
  | seed (value : UInt64)
  /-- Open a central gap that widens along the rows. -/
  | fork (a b : UInt32) (gapStart gapEnd : α)
  /-- Close the central gap that the last fork left open. -/
  | rejoin (a b : UInt32) (target : α)
  /-- Smooth the heights of the track. -/
  | smoothHeights (passes : UInt32)
  /-- Cancel all earlier removals. -/
  | fillAll
  /-- Cancel the earlier removals that touch the rows between two rows. -/
  | fillRows (a b : UInt32)
  /-- Cancel the earlier removals that touch some tiles of a row. -/
  | fillTiles (cols : List UInt32) (row : UInt32)
deriving BEq, DecidableEq, Repr

/-- How an operation takes part in an edit. -/
inductive OpRole where
  /-- It replaces the grid. -/
  | create
  /-- It acts on the grid directly. -/
  | primitive
  /-- It seeds the random stream. -/
  | seed
  /-- It stands for simpler operations. -/
  | composite
  /-- It cancels earlier removals and is never kept. -/
  | fill
deriving DecidableEq, Repr

/-! ### Verbs -/

/-- An operation without its arguments. -/
inductive Verb where
  | build
  | deleteRows
  | deleteTiles
  | randomHoles
  | jumpGaps
  | curve
  | sBend
  | slopes
  | marginStart
  | marginEnd
  | smoothColumns
  | seed
  | fork
  | rejoin
  | smoothHeights
  | fillAll
  | fillRows
  | fillTiles
deriving DecidableEq, Repr

namespace Verb

/-- All verbs. -/
def all : List Verb :=
  [build, deleteRows, deleteTiles, randomHoles, jumpGaps, curve, sBend, slopes, marginStart,
    marginEnd, smoothColumns, seed, fork, rejoin, smoothHeights, fillAll, fillRows, fillTiles]

/-- The name of a verb in plan lines and rule templates. -/
def name : Verb → String
  | build => "buildAbs"
  | deleteRows => "deleteRows"
  | deleteTiles => "deleteTiles"
  | randomHoles => "randomHoles"
  | jumpGaps => "insertJumpGaps"
  | curve => "curveRows"
  | sBend => "sBend"
  | slopes => "slopesRandomAuto"
  | marginStart => "safeMarginStart"
  | marginEnd => "safeMarginEnd"
  | smoothColumns => "smoothColumns"
  | seed => "seed"
  | fork => "ySplit"
  | rejoin => "rejoin"
  | smoothHeights => "smoothHeights"
  | fillAll => "fillAll"
  | fillRows => "fillRows"
  | fillTiles => "fillTiles"

/-- The verb with the given name, which is matched exactly. -/
def ofName? (name : String) : Option Verb :=
  all.find? (·.name == name)

/-- How operations of this verb take part in an edit. -/
def role : Verb → OpRole
  | build => .create
  | seed => .seed
  | fork | rejoin | smoothHeights => .composite
  | fillAll | fillRows | fillTiles => .fill
  | _ => .primitive

/-- A verb is found under its own name. -/
theorem ofName?_name (v : Verb) : ofName? v.name = some v := by
  cases v <;> decide

end Verb

namespace Op

variable {α : Type}

/-- The verb of an operation. -/
def verb : Op α → Verb
  | build .. => .build
  | deleteRows .. => .deleteRows
  | deleteTiles .. => .deleteTiles
  | randomHoles .. => .randomHoles
  | jumpGaps .. => .jumpGaps
  | curve .. => .curve
  | sBend .. => .sBend
  | slopes .. => .slopes
  | marginStart .. => .marginStart
  | marginEnd .. => .marginEnd
  | smoothColumns .. => .smoothColumns
  | seed .. => .seed
  | fork .. => .fork
  | rejoin .. => .rejoin
  | smoothHeights .. => .smoothHeights
  | fillAll => .fillAll
  | fillRows .. => .fillRows
  | fillTiles .. => .fillTiles

/-- How the operation takes part in an edit. -/
def role (op : Op α) : OpRole :=
  op.verb.role

/-- Executing the operation draws from the random stream. -/
def isRandom : Op α → Bool
  | randomHoles .. | slopes .. => true
  | _ => false

/-- The operation seeds the random stream. -/
def isSeed : Op α → Bool
  | seed .. => true
  | _ => false

/-- The seed that the operation sets. -/
def seed? : Op α → Option UInt64
  | seed value => some value
  | _ => none

/-- The first and the last row in which the operation deletes, if it deletes whole rows or tiles of
given rows. -/
def deletedRows : Op α → Option (UInt32 × UInt32)
  | deleteRows a b | fork a b _ _ | rejoin a b _ => some (min a b, max a b)
  | deleteTiles _ row => some (row, row)
  | _ => none

/-- An operation sets a seed exactly when it is a seed operation. -/
theorem isSeed_eq (op : Op α) : op.isSeed = op.seed?.isSome := by
  cases op <;> rfl

end Op

end Raceway
