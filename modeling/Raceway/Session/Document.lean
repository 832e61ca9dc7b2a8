import Raceway.Op.Document
import Raceway.Session.Editor
/-!
# Sessions as documents

What a request or a replay did is written as an object of its parts.

## Main definitions

* `Raceway.Performance.document` and `Raceway.Outcome.document`: what a plan or a request did.
* `Raceway.Verdict.document`: what became of a request.
-/

namespace Raceway

open Json

/-- The document of a plan. -/
def Plan.document (plan : Plan Float) : Node :=
  .object [("ops", .list (plan.map Op.document))]

/-- The document of a finding. -/
def Finding.document (f : Finding) : Node :=
  .object [("kind", .str f.topic.name), ("severity", .str f.weight.name),
    ("message", .str f.message)]

/-- The document of findings. -/
def Finding.listDocument (l : List Finding) : Node :=
  .object [("entries", .list (l.map document))]

/-- The document of an operation that was dropped. -/
def Dropped.document (d : Dropped Float) : Node :=
  .object [("line", .str d.op.line), ("reason", .str d.reason.message)]

/-- The name of a way of merging in documents. -/
def MergeMode.tag : MergeMode → String
  | rebuild => "Rebuild"
  | append => "Amend"

/-- The document of a merge. -/
def MergeSummary.document (s : MergeSummary Float) : Node :=
  .object [("mode", .str s.mode.tag), ("kept", .int s.kept), ("added", .int s.added),
    ("fills", .int s.fills), ("dropped", .list (s.dropped.map Dropped.document)),
    ("synthesized_create", .bool s.synthesizedCreate)]

/-- The document of a report. -/
def Report.document (r : Report) : Node :=
  .object [("index", .int r.index), ("op", .str r.op.line), ("affected", .int r.affected),
    ("note", match r.note with
      | some note => .str note.text
      | none => .null)]

/-- The members of what a plan did, in front of the summary of a merge and behind it. -/
def Performance.members (p : Performance) : List (String × Node) × List (String × Node) :=
  ([("plan", p.plan.document), ("executed", p.executed.document),
    ("diagnostics", Finding.listDocument p.findings)],
   [("reports", .list (p.reports.map Report.document)), ("digest", .int p.digest.toNat)])

/-- The document of what a plan did. -/
def Performance.document (p : Performance) : Node :=
  .object (p.members.1 ++ p.members.2)

/-- The document of what a request did. -/
def Outcome.document (o : Outcome) : Node :=
  let (front, back) := o.toPerformance.members
  .object (front ++ [("summary", o.summary.document)] ++ back)

/-- The document of what became of a request. -/
def Verdict.document : Verdict → Node
  | applied o => .object [("Applied", o.document)]
  | failed stage message =>
    .object [("Failed", .object [("stage", .str stage), ("message", .str message)])]

end Raceway
