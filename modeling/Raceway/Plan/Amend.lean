import Raceway.Plan.Basic
/-!
# Amending a plan

The operations of a request are merged into the plan that is kept. A request that creates a grid
replaces the plan. Any other request is appended to it, after its fill directives have removed the
deletions that they cancel and its seed the seeds before it.

## Main definitions

* `Raceway.Op.cancels`: a fill directive cancels an operation.
* `Raceway.Plan.amend`: the merged plan, and a summary of what became of each line.
-/

namespace Raceway

variable {α : Type}

/-- How a request is merged. -/
inductive MergeMode where
  /-- The request replaces the plan. -/
  | rebuild
  /-- The request is appended to the plan. -/
  | append
deriving DecidableEq, Repr

/-- Why an operation of the plan is not kept. -/
inductive DropReason (α : Type) where
  /-- The request replaces the plan. -/
  | rebuilt
  /-- Fill directives are never kept. -/
  | fillKept
  /-- The request brings a seed. -/
  | newSeed
  /-- A fill directive of the request cancels the operation. -/
  | overridden (fill : Op α)

/-- An operation of the plan that is not kept. -/
structure Dropped (α : Type) where
  /-- The operation. -/
  op : Op α
  /-- Why it is not kept. -/
  reason : DropReason α

/-- What a merge did. -/
structure MergeSummary (α : Type) where
  /-- How the request was merged. -/
  mode : MergeMode
  /-- The number of operations carried over from the plan. -/
  kept : Nat
  /-- The number of operations added, fill directives left out. -/
  added : Nat
  /-- The number of fill directives. -/
  fills : Nat
  /-- The operations that were not carried over. -/
  dropped : List (Dropped α)
  /-- A default grid was put into the plan. -/
  synthesizedCreate : Bool

/-- A merged plan. -/
structure Merge (α : Type) where
  /-- The plan. -/
  plan : Plan α
  /-- What the merge did. -/
  summary : MergeSummary α

/-! ### What a fill directive cancels -/

namespace Op

/-- The operation is a fill directive. -/
def isFill (op : Op α) : Bool :=
  op.role == .fill

/-- The operation creates a grid. -/
def isCreate (op : Op α) : Bool :=
  op.role == .create

/-- Two closed ranges of rows, each given by its ends in order, have a row in common. -/
def rowsMeet (s t : UInt32 × UInt32) : Bool :=
  s.1 ≤ t.2 && t.1 ≤ s.2

/-- The fill directive cancels the operation. The one for all rows cancels every removal, the one
for some rows the removals in rows that it shares, and the one for tiles the removals of whole rows
around its row and of some of its tiles. -/
def cancels : Op α → Op α → Bool
  | fillAll, op =>
    match op with
    | randomHoles .. | jumpGaps .. => true
    | op => op.deletedRows.isSome
  | fillRows a b, op => op.deletedRows.any (rowsMeet (min a b, max a b))
  | fillTiles cols row, op =>
    match op with
    | deleteRows a b => min a b ≤ row && row ≤ max a b
    | deleteTiles deleted deletedRow => deletedRow == row && deleted.any cols.contains
    | _ => false
  | _, _ => false

end Op

/-! ### The merge -/

namespace Plan

/-- Why an operation of the plan is not kept in a merge with the given fill directives, if it is
not. -/
def reasonToDrop? (fills : List (Op α)) (freshSeed : Bool) (op : Op α) : Option (DropReason α) :=
  if op.isFill then some .fillKept
  else if freshSeed && op.isSeed then some .newSeed
  else (fills.find? (·.cancels op)).map .overridden

/-- The operations with the first one that creates a grid moved to the front, or with a default one
put there, and whether it was. -/
def createFirst (default : Op α) (ops : List (Op α)) : List (Op α) × Bool :=
  match ops.find? Op.isCreate with
  | some create => (create :: ops.eraseP Op.isCreate, false)
  | none => (default :: ops, true)

/-- Replace the plan by the operations of a request. -/
def rebuild (previous : Plan α) (fills additions : List (Op α)) (default : Op α) : Merge α :=
  let (ops, synthesized) := createFirst default additions
  ⟨ops, ⟨.rebuild, 0, additions.length, fills.length, previous.map (⟨·, .rebuilt⟩), synthesized⟩⟩

/-- Append the operations of a request to what is kept of the plan. A plan that would be empty gets
a default grid. -/
def append (previous : Plan α) (fills additions : List (Op α)) (default : Op α) : Merge α :=
  let reason := reasonToDrop? fills (additions.any Op.isSeed)
  let kept := previous.filter fun op => (reason op).isNone
  let dropped := previous.filterMap fun op => (reason op).map (⟨op, ·⟩)
  let merged := kept ++ additions
  ⟨if merged.isEmpty then [default] else merged,
    ⟨.append, kept.length, additions.length, fills.length, dropped, merged.isEmpty⟩⟩

/-- Merge the operations of a request into the plan. The default operation creates the grid of a
plan that would otherwise have none. -/
def amend (previous : Plan α) (fresh : List (Op α)) (creates : Bool) (default : Op α) :
    Merge α :=
  let fills := fresh.filter Op.isFill
  let additions := fresh.filter fun op => !op.isFill
  if creates then rebuild previous fills additions default
  else append previous fills additions default

end Plan

/-! ### Wording -/

/-- The wording of a reason. -/
def DropReason.message : DropReason Float → String
  | rebuilt => "rebuild discards the previous plan"
  | fillKept => "fill directives are not persisted"
  | newSeed => "superseded by a new seed"
  | overridden fill => s!"overridden by {fill.line}"

/-- The word for a way of merging. -/
def MergeMode.word : MergeMode → String
  | rebuild => "rebuild"
  | append => "amend"

/-- A summary in a line. -/
def MergeSummary.text (s : MergeSummary α) : String :=
  s!"{s.mode.word}: kept {s.kept}, added {s.added}, dropped {s.dropped.length}"
    ++ (if s.fills > 0 then s!", {s.fills} fill directive(s)" else "")
    ++ (if s.synthesizedCreate then ", default grid synthesized" else "")

end Raceway
