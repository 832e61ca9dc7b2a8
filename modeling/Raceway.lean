import Raceway.Text.Blank
import Raceway.Decimal.Binary
import Raceway.Decimal.Shortest
import Raceway.Decimal.Reading
import Raceway.Op.Basic
import Raceway.Op.Schema
import Raceway.Op.Call
import Raceway.Op.Line
import Raceway.Scalar
import Raceway.Plan.Basic
import Raceway.Plan.Amend
import Raceway.Plan.Seeding
import Raceway.Plan.Expand
import Raceway.Random.Stream
import Raceway.Checksum
import Raceway.Params
import Raceway.Grid.Basic
import Raceway.Grid.Removal
import Raceway.Grid.Shape
import Raceway.Grid.Digest
import Raceway.Track
import Raceway.Execution
import Raceway.Json.Node
import Raceway.Json.Reader
import Raceway.Params.Document
import Raceway.Op.Document
import Raceway.Text.Category
import Raceway.Text.Property
import Raceway.Text.Folding
import Raceway.Pattern.Class
import Raceway.Pattern.Basic
import Raceway.Pattern.Search
import Raceway.Pattern.Names
import Raceway.Pattern.Flags
import Raceway.Pattern.Error
import Raceway.Pattern.Reader
import Raceway.Pattern.Parser
import Raceway.Request.Wording
import Raceway.Request.Cast
import Raceway.Request.Spec
import Raceway.Request.Rulebook
import Raceway.Request.Document
import Raceway.Request.Understanding
import Raceway.Request.Builtin
import Raceway.Text.Hex
import Raceway.Disk.Error
import Raceway.Storage.Error
import Raceway.Storage.Basic
import Raceway.Storage.Memory
import Raceway.Session.Finding
import Raceway.Session.Failure
import Raceway.Session.Edit
import Raceway.Request.Queue
import Raceway.Session.History
import Raceway.Session.Editor
import Raceway.Session.Document
import Raceway.Disk.Path
import Raceway.Disk.Basic
import Raceway.Disk.Tree
import Raceway.Storage.Files
import Raceway.Snapshot.Bytes
import Raceway.Snapshot.Basic
import Raceway.Snapshot.Format
import Raceway.Session.Workshop
import Raceway.Command.Arguments
import Raceway.Command.Help
import Raceway.Command.Run
import Raceway.Main
import Raceway.Proofs.Decimal.Double
import Raceway.Proofs.Decimal.Rounding
import Raceway.Proofs.Decimal.Numerals
import Raceway.Proofs.Text.Blank
import Raceway.Proofs.Op.Argument
import Raceway.Proofs.Op.Line
import Raceway.Proofs.Op.Binding
import Raceway.Proofs.Plan.RoundTrip
import Raceway.Proofs.Execution
import Raceway.Proofs.InPlace
import Raceway.Proofs.Op.Accepted
import Raceway.Proofs.Plan.Expansion
import Raceway.Proofs.Plan.BuildsFirst
import Raceway.Proofs.Session.Edit
import Raceway.Proofs.Session.LiveGrid
import Raceway.Proofs.Session.Reload
import Raceway.Proofs.Grid.Tiles
import Raceway.Proofs.Plan.Refill
import Raceway.Proofs.Text.Category
import Raceway.Proofs.Pattern.Reading
import Raceway.Proofs.Pattern.Replacing
import Raceway.Proofs.Pattern.Alignment
import Raceway.Proofs.Request.Phrases
import Raceway.Proofs.Request.Spacing
import Raceway.Proofs.Request.Rewording
import Raceway.Proofs.Request.Wording
import Raceway.Proofs.Grid.Reshaping
import Raceway.Proofs.Plan.Reshaping
import Raceway.Proofs.Plan.Stopping
import Raceway.Proofs.Grid.Counting
import Raceway.Proofs.Plan.Accounting
import Raceway.Proofs.Plan.FirstSeed
import Raceway.Proofs.Session.Seeds
import Raceway.Proofs.Disk.Tree
import Raceway.Proofs.Session.WorkshopFiles
import Raceway.Proofs.Session.Snapshots
import Raceway.Proofs.Grid.Guarded
import Raceway.Proofs.Session.Batches
import Raceway.Proofs.Session.Executable
import Raceway.Proofs.Grid.GuardedShape
import Raceway.Proofs.GuardedExecution
import Raceway.Proofs.Exact
import Raceway.Proofs.Plan.Gaps
import Raceway.Proofs.Plan.Composites
import Raceway.Proofs.Grid.EvenRows
import Raceway.Proofs.Plan.Parts
import Raceway.Proofs.Plan.StableText
import Raceway.Proofs.Pattern.Surroundings
import Raceway.Proofs.Request.Numbers
import Raceway.Proofs.Request.LineByLine
import Raceway.Proofs.Random.Draws
import Raceway.Proofs.Grid.Commuting
import Raceway.Proofs.Grid.Slopes
import Raceway.Proofs.Grid.Smoothing
import Raceway.Proofs.Decimal.Arithmetic
import Raceway.Proofs.Grid.Holes
import Raceway.Proofs.Grid.Places
import Raceway.Proofs.Plan.BuiltOrNot
import Raceway.Proofs.Plan.SeedPlaces
import Raceway.Proofs.Request.RuleByRule
import Raceway.Proofs.Request.Casting
import Raceway.Proofs.Op.ByName
import Raceway.Proofs.Decimal.Integral
import Raceway.Proofs.Op.Bound
import Raceway.Proofs.Op.Integers
import Raceway.Proofs.Json.Keys
import Raceway.Proofs.Request.Templates
import Raceway.Proofs.Request.Filling
import Raceway.Proofs.Checksum
import Raceway.Proofs.Grid.Bytes
import Raceway.Proofs.Plan.Modes
import Raceway.Proofs.Json.RoundTrip
import Raceway.Proofs.Request.GuardedLists
import Raceway.Proofs.Request.IntegerLists
import Raceway.Proofs.Storage.SeedLog
import Raceway.Proofs.Grid.Views
import Raceway.Proofs.Disk.Replacement
import Raceway.Proofs.Snapshot.Checks
import Raceway.Proofs.Snapshot.SlotCount
import Raceway.Proofs.Request.Passes
import Raceway.Proofs.Pattern.Finding
import Raceway.Proofs.Request.UnknownWords
import Raceway.Proofs.Request.Synonyms
