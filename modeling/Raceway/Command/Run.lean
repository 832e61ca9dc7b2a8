import Raceway.Command.Help
import Raceway.Session.Document
/-!
# Running a command

A command prints its result, and on the side what was noticed, and ends with an exit code: zero
where it succeeds, one where it fails, and two where its arguments cannot be used. Before a task is
taken up, the workshop goes through a round without requests.

## Main definitions

* `Raceway.Printed`: what a command prints, and its exit code.
* `Raceway.Invocation.run`: carrying out a task.
* `Raceway.runCommand`: carrying out the task that arguments ask for.
-/

namespace Raceway

/-- What a command prints, and its exit code. -/
structure Printed where
  /-- The exit code. -/
  code : Nat
  /-- The result. -/
  out : String := ""
  /-- What is said on the side. -/
  err : String := ""
deriving DecidableEq, Repr

/-! ### Printing -/

/-- A line. -/
def lineOf (s : String) : String :=
  s ++ "\n"

/-- A document as it is printed. -/
def printedDocument (n : Json.Node) : String :=
  lineOf n.pretty

/-- The line of a report. -/
def Report.printed (r : Report) : String :=
  let note := match r.note with
    | some note => s!" ({note.text})"
    | none => ""
  lineOf s!"  #{r.index} {r.op.line}: {r.affected} tile(s){note}"

/-- The line of a finding. -/
def Finding.printed (f : Finding) : String :=
  lineOf s!"{f.weight.name} [{f.topic.name}] {f.message}"

/-- The lines of what a plan did. -/
def Performance.printed (p : Performance) : String :=
  String.join (p.reports.map Report.printed) ++ lineOf ("digest " ++ Text.hex 8 p.digest.toNat)

/-- What was noticed, as it is printed. -/
def Performance.printedFindings (p : Performance) : String :=
  String.join (p.findings.map Finding.printed)

/-- The lines of what a request did. -/
def Outcome.printed (o : Outcome) : String :=
  lineOf o.summary.text ++ Plan.text o.plan ++ o.toPerformance.printed

/-- What is printed about a request. -/
def Verdict.printed (json : Bool) (v : Verdict) : Printed :=
  let code := if v.outcome?.isSome then 0 else 1
  if json then ⟨code, printedDocument v.document, ""⟩
  else
    match v with
    | applied o => ⟨code, o.printed, o.printedFindings⟩
    | failed stage message => ⟨code, "", lineOf s!"edit failed at {stage}: {message}"⟩

/-- What is printed about the text of a plan. -/
def printedPlan (json : Bool) : Except StoreError (Option String) → Printed
  | .error e => ⟨1, "", lineOf s!"cannot read plan: {e.message}"⟩
  | .ok text =>
    if json then
      let node := match text with
        | some text => .str text
        | none => .null
      ⟨0, printedDocument (.object [("plan", node)]), ""⟩
    else
      match text with
      | some text => ⟨0, text, ""⟩
      | none => ⟨0, "", lineOf "no plan saved yet"⟩

/-! ### Tasks -/

namespace Workshop

variable {m : Type → Type} [Monad m]

/-- Carry out a request and print what became of it. -/
def printEdit (disk : Disk m) (draw : m SeedDraw) (json : Bool) (text : String) (w : Workshop) :
    m Printed := do
  let w ← { w with editor := w.editor.push ⟨.designer, text⟩ }.round disk draw
  match w.editor.history.entries.getLast? with
  | some edited => return edited.verdict.printed json
  | none => return ⟨1, "", lineOf "edit produced no result"⟩

/-- Write a snapshot of a replay where one is wanted, and say so where that fails. -/
def snapshotReplay (disk : Disk m) (places : Places) (p : Performance) (grid : Option Grid) :
    m String := do
  match places.snapshot with
  | none => return ""
  | some place =>
    match ← disk.saveSnapshot place (Snapshot.capture grid (Plan.text p.plan)) with
    | .ok () => return ""
    | .error e => return lineOf s!"cannot write snapshot {place}: {e.message}"

/-- Carry out the plan and print what it did. -/
def printReplay (disk : Disk m) (draw : m SeedDraw) (json : Bool) (w : Workshop) : m Printed := do
  let storage := storage disk draw w.places
  match ← replay storage w.editor.settings w.editor.track with
  | (.error e, _) => return ⟨1, "", lineOf s!"replay failed at {e.stage}: {e.message}"⟩
  | (.ok p, track) =>
    let warning ← snapshotReplay disk w.places p track.grid
    if json then return ⟨0, printedDocument p.document, warning⟩
    else return ⟨0, p.printed, warning ++ p.printedFindings⟩

end Workshop

variable {m : Type → Type} [Monad m]

/-- Carry out a task. -/
def Invocation.run (disk : Disk m) (draw : m SeedDraw) (i : Invocation) : m Printed := do
  let w ← Workshop.prepare disk i.places { mode := i.mode }
  let w ← w.round disk draw
  match i.task with
  | .edit text => w.printEdit disk draw i.json text
  | .print => return printedPlan i.json (← disk.loadPlan i.places.plan)
  | .replay => w.printReplay disk draw i.json

/-- What is printed where there is nothing to be done. -/
def Stop.printed : Stop → Printed
  | help topic => ⟨0, lineOf topic.text, ""⟩
  | version => ⟨0, lineOf versionText, ""⟩
  | misuse e => ⟨2, "", lineOf e.text⟩

/-- Carry out the task that arguments ask for. -/
def runCommand (disk : Disk m) (draw : m SeedDraw) (arguments : List String) : m Printed :=
  match Invocation.ofArguments arguments with
  | .ok i => i.run disk draw
  | .error stop => pure stop.printed

end Raceway
