import Raceway.Request.Wording
import Raceway.Session.Failure
import Raceway.Session.Finding
import Raceway.Storage.Basic
/-!
# Carrying out a request

A request is understood, merged into the kept plan, and given a seed if it needs one. The new plan
is saved, and then expanded and carried out on the live track. Nothing is saved before all of the
stages in front of it have passed. The kept plan holds its composite operations as they are, since
what they stand for depends on the whole plan.

A replay carries out the kept plan as it is, and writes nothing.

## Main definitions

* `Raceway.Settings`: what stays the same from request to request.
* `Raceway.draft`: the plan that a request leads to, before it is given a seed.
* `Raceway.perform`: expanding a plan and carrying it out.
* `Raceway.edit` and `Raceway.replay`: the two ways to the live track.
-/

namespace Raceway

/-- What stays the same from request to request. -/
structure Settings where
  /-- The parameters of the track. -/
  params : Params := {}
  /-- How the kept plan is read. -/
  mode : ReadMode := .lenient

/-- The operation that creates the default grid. -/
def Params.defaultCreate {α : Type} (params : Params) : Op α :=
  .build params.defaultRows params.defaultCols

/-- What a plan did. -/
structure Performance where
  /-- The plan as it is kept. -/
  plan : Plan Float
  /-- The plan as it was carried out. -/
  executed : Plan Float
  /-- What was noticed. -/
  findings : List Finding
  /-- What each operation did. -/
  reports : List Report
  /-- The digest of the grid at the end. -/
  digest : UInt32

/-- What a request did. -/
structure Outcome extends Performance where
  /-- What became of the operations in the merge. -/
  summary : MergeSummary Float

/-! ### Before the plan is saved -/

/-- Read the kept plan. No text is the empty plan. -/
def readPlan (mode : ReadMode) : Option String → Except PlanError (Plan Float × List PlanError)
  | some text => Plan.read mode text.toList
  | none => .ok ([], [])

/-- The plan that a request leads to, before it is given a seed, and what was noticed on the way. -/
structure Draft where
  /-- The merge of the request into the kept plan. -/
  merge : Merge Float
  /-- What was noticed. -/
  findings : List Finding

/-- Understand a request. -/
def understandText (book : Rulebook) (text : String) : Understanding :=
  understand book (Wording.normalize text.toList)

/-- The plan that a request leads to from the kept text. -/
def draft (settings : Settings) (book : Rulebook) (text : String) (kept : Option String) :
    Except PlanError Draft := do
  let understood := understandText book text
  let (previous, skipped) ← readPlan settings.mode kept
  let create := settings.params.defaultCreate
  let merge := previous.amend understood.ops understood.creates create
  return ⟨merge, understood.findings ++ skipped.map .skippedLine
    ++ merge.summary.findings create⟩

/-! ### After the plan is saved -/

/-- Expand a plan and carry it out. The given findings come first. -/
def perform (params : Params) (plan : Plan Float) (findings : List Finding) (t : Track) :
    Except ExecutionError Performance × Track :=
  let (executed, assumed) := plan.expand params.defaultCols
  let (result, t) := t.execute params executed
  (result.map fun reports =>
    ⟨plan, executed, findings ++ assumed.map .assumedWidth, reports, t.digest⟩, t)

/-- What is noticed about the seed of a plan: that one was drawn, and that it could not be
recorded. -/
def seedFindings (entry : Option SeedEntry) (unrecorded : Option (SeedEntry × StoreError)) :
    List Finding :=
  (entry.map fun e => .drawnSeed e.seed).toList
    ++ (unrecorded.map fun (entry, e) => .unrecordedSeed entry.seed e).toList

/-! ### Requests and replays -/

variable {m : Type → Type} [Monad m]

/-- Save a draft with its seed and carry it out. -/
def finish (storage : Storage m) (params : Params) (d : Draft) (t : Track) :
    m (Except Failure Outcome × Track) := do
  let ⟨plan, entry⟩ ← storage.seeded d.merge.plan
  match ← storage.save plan.text with
  | .error e => return (.error (.store e), t)
  | .ok () =>
    let unrecorded ← storage.recordDrawn entry
    match perform params plan (d.findings ++ seedFindings entry unrecorded) t with
    | (.error e, t) => return (.error (.execution e), t)
    | (.ok done, t) => return (.ok ⟨done, d.merge.summary⟩, t)

/-- Carry out a request on the live track. -/
def edit (storage : Storage m) (settings : Settings) (book : Rulebook) (text : String) (t : Track) :
    m (Except Failure Outcome × Track) := do
  match ← storage.load with
  | .error e => return (.error (.store e), t)
  | .ok kept =>
    match draft settings book text kept with
    | .error e => return (.error (.plan e), t)
    | .ok d => finish storage settings.params d t

/-- Carry out the kept plan on the live track. -/
def replay (storage : Storage m) (settings : Settings) (t : Track) :
    m (Except Failure Performance × Track) := do
  match ← storage.load with
  | .error e => return (.error (.store e), t)
  | .ok kept =>
    match readPlan settings.mode kept with
    | .error e => return (.error (.plan e), t)
    | .ok (plan, skipped) =>
      let (result, t) := perform settings.params plan (skipped.map .skippedLine) t
      return (result.mapError .execution, t)

end Raceway
