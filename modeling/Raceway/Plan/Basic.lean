import Raceway.Op.Line
/-!
# Plans

A plan is a list of operations in the order in which they are carried out. A plan is stored as
text with one operation a line; blank lines and comments are passed over on reading.

## Main definitions

* `Raceway.Plan`: a list of operations.
* `Raceway.Plan.seed`: the seed of the random stream that a plan draws from.
* `Raceway.Plan.text`: a plan as text.
* `Raceway.Plan.read`: reading, which rejects or skips lines that are no operations.
-/

namespace Raceway

open Text

/-- Operations in the order in which they are carried out. -/
abbrev Plan (α : Type) := List (Op α)

namespace Plan

variable {α : Type}

/-- The plan draws from the random stream. -/
def hasRandom (plan : Plan α) : Bool :=
  plan.any Op.isRandom

/-- The plan sets a seed. -/
def hasSeed (plan : Plan α) : Bool :=
  plan.any Op.isSeed

/-- The seed of a random stream that nothing else seeds. -/
def defaultSeed : UInt64 := 42

/-- The seed of the random stream of a plan: that of its first seed operation. -/
def seed (plan : Plan α) : UInt64 :=
  (plan.findSome? Op.seed?).getD defaultSeed

/-- The text of a plan: a line for each operation. -/
def text (plan : Plan Float) : String :=
  String.join (plan.map fun op => op.line ++ "\n")

end Plan

/-! ### Reading -/

/-- What becomes of a line that is no operation. -/
inductive ReadMode where
  /-- The whole plan is rejected at the first such line. -/
  | strict
  /-- Such lines are skipped. -/
  | lenient
deriving DecidableEq, Repr

/-- A line of a plan that is no operation. -/
structure PlanError where
  /-- The number of the line, from one. -/
  line : Nat
  /-- The line without the blanks around it. -/
  text : String
  /-- Why it is no operation. -/
  reason : LineError

/-- The wording of a plan error. -/
def PlanError.message (e : PlanError) : String :=
  s!"plan line {e.line}: {e.reason.message} (`{e.text}`)"

namespace Plan

/-- A line that holds no operation: it is empty, or a comment. -/
def isSkipped : List Char → Bool
  | [] | '#' :: _ | '/' :: '/' :: _ => true
  | _ => false

/-- The lines of a text that have to be operations, with their numbers and without the blanks around
them. -/
def entries (text : List Char) : List (Nat × List Char) :=
  ((lines text).zipIdx 1).filterMap fun (line, number) =>
    if isSkipped (trim line) then none else some (number, trim line)

/-- Read the operation on a numbered line. -/
def readEntry : Nat × List Char → Except PlanError (Op Float)
  | (number, line) =>
    match Op.ofLine line with
    | .ok op => .ok op
    | .error e => .error ⟨number, String.ofList line, e⟩

/-- The operation on a line, if it is one. -/
def okEntry? (entry : Nat × List Char) : Option (Op Float) :=
  (readEntry entry).toOption

/-- Why a line is no operation, if it is none. -/
def badEntry? (entry : Nat × List Char) : Option PlanError :=
  match readEntry entry with
  | .ok _ => none
  | .error e => some e

/-- Read a plan, with the lines that were skipped. -/
def read (mode : ReadMode) (text : List Char) : Except PlanError (Plan Float × List PlanError) :=
  match mode with
  | .strict => do
    let ops ← (entries text).mapM readEntry
    return (ops, [])
  | .lenient => .ok ((entries text).filterMap okEntry?, (entries text).filterMap badEntry?)

end Plan

end Raceway
