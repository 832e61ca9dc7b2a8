import Raceway.Request.Document
import Raceway.Request.Queue
import Raceway.Session.Edit
import Raceway.Session.History
/-!
# The editor

The editor holds the live track, the requests that wait, and a history of the requests that were
carried out. Without a rulebook, every request fails and nothing else happens.

## Main definitions

* `Raceway.Verdict`: what became of a request.
* `Raceway.Editor`: the editor.
* `Raceway.Editor.applyWaiting`: carrying out the requests that wait.
-/

namespace Raceway

/-- What became of a request. -/
inductive Verdict where
  /-- It was carried out. -/
  | applied (o : Outcome)
  /-- A stage failed, for the given reason. -/
  | failed (stage message : String)

namespace Verdict

/-- What a request did, if it was carried out. -/
def outcome? : Verdict → Option Outcome
  | applied o => some o
  | failed .. => none

/-- The verdict on a request that fails. -/
def ofFailure (e : Failure) : Verdict :=
  .failed e.stage e.message

/-- The verdict on a request. -/
def ofResult : Except Failure Outcome → Verdict
  | .ok o => .applied o
  | .error e => ofFailure e

end Verdict

/-- A request and what became of it. -/
structure Edited where
  /-- The request. -/
  request : Request
  /-- What became of it. -/
  verdict : Verdict

/-- A track before anything has happened. -/
def Track.fresh : Track :=
  ⟨none, Random.Stream.ofSeed Plan.defaultSeed⟩

/-- The editor. -/
structure Editor where
  /-- The rulebook, or why there is none. -/
  rules : Except RulebookError Rulebook
  /-- What stays the same from request to request. -/
  settings : Settings := {}
  /-- The live track. -/
  track : Track := .fresh
  /-- The requests that wait, the oldest first. -/
  waiting : List Request := []
  /-- The requests that were carried out. -/
  history : History Edited := .empty

namespace Editor

variable {m : Type → Type} [Monad m]

/-- Let a request wait. -/
def push (e : Editor) (r : Request) : Editor :=
  { e with waiting := e.waiting ++ [r] }

/-- Carry out a request by a rulebook. -/
def apply (storage : Storage m) (book : Rulebook) (e : Editor) (r : Request) : m Editor := do
  let (result, track) ← edit storage e.settings book r.text e.track
  return { e with track := track, history := e.history.push ⟨r, .ofResult result⟩ }

/-- Turn down a request. -/
def refuse (error : RulebookError) (e : Editor) (r : Request) : Editor :=
  { e with history := e.history.push ⟨r, .ofFailure (.rules error)⟩ }

/-- Carry out the requests that wait. -/
def applyWaiting (storage : Storage m) (e : Editor) : m Editor :=
  let idle := { e with waiting := [] }
  match e.rules with
  | .ok book => e.waiting.foldlM (apply storage book) idle
  | .error error => pure (e.waiting.foldl (refuse error) idle)

/-- Put another rulebook in place. -/
def reload (e : Editor) (text : String) : Editor :=
  { e with rules := Rulebook.ofText text.toList }

end Editor

end Raceway
