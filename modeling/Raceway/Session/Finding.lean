import Raceway.Plan.Amend
import Raceway.Plan.Expand
import Raceway.Request.Understanding
import Raceway.Storage.Error
/-!
# Findings

What is noticed while a request is carried out, and does not stop it, is kept as a list of findings.

## Main definitions

* `Raceway.Finding`: something that was noticed.
* `Raceway.Finding.topic`, `Raceway.Finding.weight` and `Raceway.Finding.message`: how it is told.
-/

namespace Raceway

/-- Something that was noticed. -/
inductive Finding where
  /-- The operations of a rule are left out. -/
  | ruleFailure (e : RuleFailure)
  /-- A word of the request has no meaning. -/
  | unknownWord (word : List Char)
  /-- A line of the kept plan is skipped. -/
  | skippedLine (e : PlanError)
  /-- An operation of the kept plan is dropped. -/
  | dropped (d : Dropped Float)
  /-- A default operation creates the grid. -/
  | defaultCreate (op : Op Float)
  /-- A seed is drawn. -/
  | drawnSeed (seed : UInt64)
  /-- A drawn seed is not in the seed log. -/
  | unrecordedSeed (seed : UInt64) (e : StoreError)
  /-- A composite operation is expanded for an assumed width. -/
  | assumedWidth (w : AssumedWidth Float)

/-- What a finding is about. -/
inductive Topic where
  /-- The rules that match a request. -/
  | rules
  /-- The words of a request. -/
  | words
  /-- The text of a plan. -/
  | planText
  /-- The merge of a request into a plan. -/
  | merge
  /-- The expansion of a plan. -/
  | expansion
  /-- The seed of a plan. -/
  | seed
deriving DecidableEq, Repr

/-- The name of a topic. -/
def Topic.name : Topic → String
  | rules => "MatchCast"
  | words => "UnrecognizedInput"
  | planText => "PlanParse"
  | merge => "Amendment"
  | expansion => "Expansion"
  | seed => "Seeding"

/-- How much a finding matters. -/
inductive Weight where
  | info
  | warning
  | error
deriving DecidableEq, Repr

/-- The name of a weight. -/
def Weight.name : Weight → String
  | info => "Info"
  | warning => "Warning"
  | error => "Error"

namespace Finding

/-- What a finding is about. -/
def topic : Finding → Topic
  | ruleFailure _ => .rules
  | unknownWord _ => .words
  | skippedLine _ => .planText
  | dropped _ | defaultCreate _ => .merge
  | drawnSeed _ | unrecordedSeed .. => .seed
  | assumedWidth _ => .expansion

/-- How much a finding matters. -/
def weight : Finding → Weight
  | ruleFailure _ | unknownWord _ | skippedLine _ | assumedWidth _ => .warning
  | dropped _ | defaultCreate _ | drawnSeed _ => .info
  | unrecordedSeed .. => .error

/-- The wording of a finding. -/
def message : Finding → String
  | ruleFailure e => e.message
  | unknownWord word => s!"unrecognized input `{String.ofList word}`"
  | skippedLine e => e.message
  | dropped d => s!"dropped `{d.op.line}`: {d.reason.message}"
  | defaultCreate op => s!"synthesized {op.line}"
  | drawnSeed seed => s!"synthesized seed({seed.toNat})"
  | unrecordedSeed seed e => s!"seed({seed.toNat}) not recorded in the seed log: {e.message}"
  | assumedWidth w => s!"{w.op.line}: no preceding buildAbs, assuming width {w.width.toNat}"

end Finding

/-! ### Findings of the steps -/

/-- What is noticed while a request is understood. -/
def Understanding.findings (u : Understanding) : List Finding :=
  u.failures.map .ruleFailure ++ u.unknown.map .unknownWord

/-- What is noticed while a request is merged into the kept plan, where the given operation creates
a default grid. -/
def MergeSummary.findings (s : MergeSummary Float) (default : Op Float) : List Finding :=
  s.dropped.map .dropped ++ if s.synthesizedCreate then [.defaultCreate default] else []

end Raceway
