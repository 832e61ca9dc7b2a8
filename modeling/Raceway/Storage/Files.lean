import Raceway.Disk.Basic
import Raceway.Request.Document
import Raceway.Storage.Basic
import Raceway.Text.Blank
/-!
# A storage in files

The plan is kept in a text file, which is replaced as a whole. The seed log is a text file with one
entry a line, to which lines are only added.

## Main definitions

* `Raceway.SeedEntry.document` and `Raceway.SeedEntry.listOfText`: a seed log as text.
* `Raceway.Disk.loadPlan`, `Raceway.Disk.savePlan`, `Raceway.Disk.recordSeed` and
  `Raceway.Disk.seedEntries`: the plan and the seed log in files.
* `Raceway.Disk.storage`: a storage in files.
* `Raceway.Disk.readRules`: a rulebook in a file.
-/

namespace Raceway

open Json

/-! ### Seed logs as text -/

namespace SeedEntry

/-- The document of an entry. -/
def document (e : SeedEntry) : Node :=
  .object [("timestamp", .int e.timestamp.toNat), ("seed", .int e.seed.toNat),
    ("reason", .str e.reason)]

/-- The line of an entry. -/
def line (e : SeedEntry) : String :=
  e.document.compact ++ "\n"

/-- Read an entry. -/
def reader : Reader SeedEntry :=
  Reader.record "a seed log entry"
    [⟨"timestamp", fun e => return { e with timestamp := UInt64.ofNat (← Reader.word 64) }, false⟩,
      ⟨"seed", fun e => return { e with seed := UInt64.ofNat (← Reader.word 64) }, false⟩,
      ⟨"reason", fun e => return { e with reason := ← Reader.str }, false⟩] ⟨0, 0, ""⟩

/-- The lines of a seed log that hold an entry, with their numbers. -/
def entryLines (text : List Char) : List (List Char × Nat) :=
  ((Text.lines text).filter fun line => Text.trim line ≠ []).zipIdx 1

/-- Read the entry on a numbered line. -/
def ofLine : List Char × Nat → Except StoreError SeedEntry
  | (line, number) => (Reader.run reader line).mapError fun e => .decode (.entry number e)

/-- Read a seed log. -/
def listOfText (text : String) : Except StoreError (List SeedEntry) :=
  (entryLines text.toList).mapM ofLine

end SeedEntry

/-! ### Files -/

namespace Disk

variable {m : Type → Type} [Monad m]

/-- The content of a text file, if there is such a file. -/
def textIfThere (disk : Disk m) (p : Path) : m (Except StoreError (Option String)) := do
  match ← disk.readText p with
  | .ok text => return .ok (some text)
  | .error .notFound => return .ok none
  | .error e => return .error (.disk e)

/-- Bring back the text of the plan, if there is one. -/
def loadPlan (disk : Disk m) (p : Path) : m (Except StoreError (Option String)) :=
  disk.textIfThere p

/-- Put a text in the place of the plan. -/
def savePlan (disk : Disk m) (p : Path) (text : String) : m (Except StoreError Unit) := do
  return (← disk.replace p text.toUTF8).mapError .disk

/-- Add an entry to the seed log. -/
def recordSeed (disk : Disk m) (p : Path) (e : SeedEntry) : m (Except StoreError Unit) := do
  return (← disk.addTo p e.line.toUTF8).mapError .disk

/-- The entries of the seed log. No file is a log without entries. -/
def seedEntries (disk : Disk m) (p : Path) : m (Except StoreError (List SeedEntry)) := do
  return (← disk.textIfThere p).bind fun text =>
    match text with
    | some text => SeedEntry.listOfText text
    | none => .ok []

/-- A storage in files, given how seeds are drawn. -/
def storage (disk : Disk m) (plan log : Path) (draw : m SeedDraw) : Storage m where
  load := disk.loadPlan plan
  save := disk.savePlan plan
  record := disk.recordSeed log
  draw := draw

/-- The rulebook in a file. -/
def readRules (disk : Disk m) (p : Path) : m (Except RulebookError Rulebook) := do
  match ← disk.readText p with
  | .ok text => return Rulebook.ofText text.toList
  | .error e => return .error (.unreadable p e.message)

end Disk

end Raceway
