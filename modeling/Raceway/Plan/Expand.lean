import Raceway.Plan.Basic
import Raceway.Scalar
/-!
# Expanding composite operations

A fork, a rejoin and a smoothing of heights are replaced by simpler operations. The width of the
track is that of the last grid that the plan creates before them; the grid itself is not looked at.

A fork opens a gap in the middle of each of its rows, as wide as the interpolation between two
widths says; a rejoin goes on from the width that the last fork left, down to its target.

## Main definitions

* `Raceway.Layout`: what is known of the track at a point of a plan.
* `Raceway.Plan.gap`: the removal of a central gap in a row.
* `Raceway.Plan.expand`: the expanded plan.
-/

namespace Raceway

open Scalar

variable {α : Type}

/-- What is known of the track at a point of a plan. -/
structure Layout (α : Type) where
  /-- The number of rows of the last grid. -/
  rows : Option UInt32
  /-- The number of columns of the last grid. -/
  width : Option UInt32
  /-- The width of the gap that the last fork left open. -/
  openGap : α

/-- A composite operation that comes before any grid, and the width that it is expanded for. -/
structure AssumedWidth (α : Type) where
  /-- The operation. -/
  op : Op α
  /-- The width. -/
  width : UInt32

namespace Plan

/-- The rows between two rows, both included, that lie below the number of rows, if that is
known. -/
def rowsBetween (a b : UInt32) (rows : Option UInt32) : List UInt32 :=
  let low := (min a b).toNat
  let high := (max a b).toNat
  let stop := match rows with
    | some n => min (high + 1) n.toNat
    | none => high + 1
  (List.range' low (stop - low)).map UInt32.ofNat

/-- How far a row lies between two rows, from zero to one. A single row counts as the end. -/
def share [Scalar α] (a b row : UInt32) : α :=
  if a = b then ofCount 1 else ofCount (row - min a b) / ofCount (max a b - min a b)

/-- The width that lies between two widths at the given share, in whole columns within bounds. -/
def gapWidth [Scalar α] (low high start stop t : α) : UInt32 :=
  toCount (clamp low high (round (start + (stop - start) * t)))

/-- The words from one to another, both included. -/
def upTo (first last : UInt32) : List UInt32 :=
  (List.range' first.toNat (last.toNat + 1 - first.toNat)).map UInt32.ofNat

/-- Remove a gap of some columns in the middle of a row. Where the rest cannot be shared evenly, the
gap is one column closer to the first column. The columns are computed in words, which wrap. -/
def gap (w width row : UInt32) : Op α :=
  let first := (width - w) / 2 + 1
  let last := min (first + w - 1) width
  .deleteTiles (upTo first last) row

/-- The width of the track for a composite operation, which is at least one column. -/
def Layout.trackWidth (layout : Layout α) (default : UInt32) : UInt32 :=
  max (layout.width.getD default) 1

/-- The notice that a composite operation comes before any grid. -/
def Layout.notice (layout : Layout α) (op : Op α) (default : UInt32) : List (AssumedWidth α) :=
  if layout.width.isNone then [⟨op, default⟩] else []

/-- The widths of the gap of a fork, row by row. -/
def forkWidths [Scalar α] (layout : Layout α) (width a b : UInt32) (gapStart gapEnd : α) :
    List (UInt32 × UInt32) :=
  (rowsBetween a b layout.rows).map fun row =>
    (row, gapWidth (ofCount 1) (ofCount width) gapStart gapEnd (share a b row))

/-- The widths of the gap of a rejoin, row by row, down to the given target. -/
def rejoinWidths [Scalar α] (layout : Layout α) (width a b : UInt32) (target : α) :
    List (UInt32 × UInt32) :=
  (rowsBetween a b layout.rows).map fun row =>
    (row, gapWidth (ofCount 0) (ofCount width) layout.openGap target (share a b row))

/-- The operations that an operation stands for, and the layout after it. -/
def expandOp [Scalar α] (default : UInt32) (layout : Layout α) (op : Op α) :
    Layout α × List (Op α) :=
  let width := Layout.trackWidth layout default
  match op with
  | .build rows cols => (⟨some rows, some cols, ofCount 0⟩, [op])
  | .fork a b gapStart gapEnd =>
    let widths := forkWidths layout width a b gapStart gapEnd
    let left := (widths.getLast?.map fun last => ofCount last.2).getD layout.openGap
    ({ layout with openGap := left }, widths.map fun (row, w) => gap w width row)
  | .rejoin a b target =>
    let stop := clamp (ofCount 0) (ofCount width) target
    let widths := (rejoinWidths layout width a b stop).filter (·.2 > 0)
    ({ layout with openGap := stop }, widths.map fun (row, w) => gap w width row)
  | .smoothHeights passes => (layout, [.smoothColumns passes])
  | op => (layout, [op])

/-- The notice that an operation is expanded for an assumed width. -/
def widthNotice (default : UInt32) (layout : Layout α) (op : Op α) : List (AssumedWidth α) :=
  match op with
  | .fork .. | .rejoin .. => Layout.notice layout op default
  | _ => []

/-- Expand the operations from a known layout on. -/
def expandFrom [Scalar α] (default : UInt32) :
    Layout α → Plan α → Plan α × List (AssumedWidth α)
  | _, [] => ([], [])
  | layout, op :: rest =>
    let (next, ops) := expandOp default layout op
    let (plan, notices) := expandFrom default next rest
    (ops ++ plan, widthNotice default layout op ++ notices)

/-- The plan with its composite operations expanded, and the widths that were assumed for them. -/
def expand [Scalar α] (plan : Plan α) (default : UInt32) : Plan α × List (AssumedWidth α) :=
  expandFrom default ⟨none, none, ofCount 0⟩ plan

end Plan

end Raceway
