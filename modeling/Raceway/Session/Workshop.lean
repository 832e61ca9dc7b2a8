import Raceway.Request.Builtin
import Raceway.Session.Editor
import Raceway.Snapshot.Format
import Raceway.Storage.Files
/-!
# The workshop

The workshop is an editor whose plan, seed log and rulebook are in files. Where a place for
snapshots is given, a snapshot is written after the first round, and after every round in which a
request was carried out. A snapshot that cannot be written is left out.

## Main definitions

* `Raceway.Places`: where the files are.
* `Raceway.Workshop`: an editor with its files.
* `Raceway.Workshop.prepare`: an editor before its first round.
* `Raceway.Workshop.round`: carrying out the requests that wait.
-/

namespace Raceway

/-- Where the files of a workshop are. -/
structure Places where
  /-- The plan. -/
  plan : Path := "track.plan"
  /-- The seed log. -/
  seedLog : Path := "track.seeds.jsonl"
  /-- The rulebook; without one, the builtin one is used. -/
  rules : Option Path := none
  /-- The snapshot; without one, none is written. -/
  snapshot : Option Path := none
deriving DecidableEq, Repr

/-- An editor with its files. -/
structure Workshop where
  /-- Where the files are. -/
  places : Places
  /-- The editor. -/
  editor : Editor
  /-- The first round is over. -/
  started : Bool := false

namespace Workshop

variable {m : Type → Type} [Monad m]

/-- The rulebook at its place, or the builtin one. -/
def loadRules (disk : Disk m) (places : Places) : m (Except RulebookError Rulebook) :=
  match places.rules with
  | some p => disk.readRules p
  | none => pure Rulebook.builtin

/-- An editor before its first round. -/
def prepare (disk : Disk m) (places : Places) (settings : Settings) : m Workshop := do
  return ⟨places, { rules := ← loadRules disk places, settings := settings }, false⟩

/-- The plan and the seed log of a workshop. -/
def storage (disk : Disk m) (draw : m SeedDraw) (places : Places) : Storage m :=
  disk.storage places.plan places.seedLog draw

/-- Write a snapshot of a grid with the plan that is kept. Without a plan that can be read, none is
written. -/
def saveSnapshot (disk : Disk m) (places : Places) (grid : Option Grid) : m Unit := do
  match places.snapshot with
  | none => return
  | some p =>
    match ← disk.loadPlan places.plan with
    | .error _ => return
    | .ok text => discard (disk.saveSnapshot p (Snapshot.capture grid (text.getD "")))

/-- Carry out the requests that wait. -/
def round (disk : Disk m) (draw : m SeedDraw) (w : Workshop) : m Workshop := do
  let editor ← w.editor.applyWaiting (storage disk draw w.places)
  if !w.started || !w.editor.waiting.isEmpty then
    saveSnapshot disk w.places editor.track.grid
  return { w with editor := editor, started := true }

end Workshop

end Raceway
