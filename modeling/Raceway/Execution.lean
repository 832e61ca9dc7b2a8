import Raceway.Plan.Basic
import Raceway.Track
/-!
# Carrying out a plan

The operations of a plan are carried out in order on the live track. The random stream is seeded
once, before the first one, with the seed of the plan. The first operation that cannot be carried
out ends the execution; what was done before it stays.

## Main definitions

* `Raceway.Report`: what an operation did.
* `Raceway.ExecutionError`: where an execution ended, and why.
* `Raceway.Track.execute`: carrying out a plan.
-/

namespace Raceway

/-- A remark on an operation that changed nothing. -/
inductive Note where
  /-- The operation is the seed of the stream. -/
  | seeded
  /-- An earlier operation is the seed of the stream. -/
  | seedIgnored
  /-- There is no grid yet. -/
  | noGrid
deriving DecidableEq, Repr

/-- The wording of a remark. -/
def Note.text : Note → String
  | seeded => "random stream seeded"
  | seedIgnored => "ignored: stream already seeded by an earlier seed op"
  | noGrid => "no grid built yet"

/-- What an operation did. -/
structure Report where
  /-- The position of the operation in the plan. -/
  index : Nat
  /-- The operation. -/
  op : Op Float
  /-- The number of tiles or rows that it affected. -/
  affected : Nat
  /-- A remark. -/
  note : Option Note

/-- Why an operation cannot be carried out. -/
inductive ExecutionFault where
  /-- It does not accept its arguments. -/
  | argument (e : ArgumentError)
  /-- It stands for other operations. -/
  | composite
  /-- It is a fill directive. -/
  | fill

/-- The wording of a fault. -/
def ExecutionFault.message : ExecutionFault → String
  | argument e => s!"invalid argument: {e.message}"
  | composite => "macro was not expanded"
  | fill => "fill directives are not executable"

/-- The end of an execution at an operation that cannot be carried out. -/
structure ExecutionError where
  /-- The position of the operation in the plan. -/
  index : Nat
  /-- The operation. -/
  op : Op Float
  /-- Why it cannot be carried out. -/
  fault : ExecutionFault
  /-- What the operations before it did. -/
  completed : List Report

/-- The wording of an execution error. -/
def ExecutionError.message (e : ExecutionError) : String :=
  s!"op #{e.index} `{e.op.line}` failed: {e.fault.message}"

namespace Track

/-- Carry out one operation. A seed operation leaves a remark, and so does any but one that builds a
grid while there is none. -/
def step (params : Params) (seeded : Bool) (op : Op Float) (t : Track) :
    Except ExecutionFault (Track × Nat × Option Note) :=
  match op.role with
  | .composite => .error .composite
  | .fill => .error .fill
  | .seed => .ok (t, 0, some (if seeded then .seedIgnored else .seeded))
  | .create | .primitive =>
    if op.role ≠ .create ∧ t.grid.isNone then .ok (t, 0, some .noGrid)
    else
      match t.perform params op with
      | .ok (t, affected) => .ok (t, affected, none)
      | .error e => .error (.argument e)

/-- Carry out operations from a position of the plan on. -/
def executeFrom (params : Params) (index : Nat) (seeded : Bool) :
    Plan Float → Track → Except ExecutionError (List Report) × Track
  | [], t => (.ok [], t)
  | op :: rest, t =>
    match t.step params seeded op with
    | .error fault => (.error ⟨index, op, fault, []⟩, t)
    | .ok (next, affected, note) =>
      let report : Report := ⟨index, op, affected, note⟩
      match executeFrom params (index + 1) (seeded || op.isSeed) rest next with
      | (.ok reports, last) => (.ok (report :: reports), last)
      | (.error e, last) => (.error { e with completed := report :: e.completed }, last)

/-- Carry out a plan, on a stream that starts from its seed. -/
def execute (params : Params) (plan : Plan Float) (t : Track) :
    Except ExecutionError (List Report) × Track :=
  executeFrom params 0 false plan (t.reseed plan.seed)

end Track

end Raceway
