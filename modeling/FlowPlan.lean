import FlowPlan.Action
import FlowPlan.Assoc
import FlowPlan.Build.Compile
import FlowPlan.Build.Fanout
import FlowPlan.Build.Gate
import FlowPlan.Build.Key
import FlowPlan.Build.Lock
import FlowPlan.Build.Pipeline
import FlowPlan.Build.Pointers
import FlowPlan.Build.Record
import FlowPlan.Build.Settings
import FlowPlan.Build.Supervision
import FlowPlan.Build.Workspace
import FlowPlan.Console.Arguments
import FlowPlan.Console.CommandLine
import FlowPlan.Console.Markup
import FlowPlan.Decimal.Binary64
import FlowPlan.Decimal.Shortest
import FlowPlan.Disk.Basic
import FlowPlan.Disk.Path
import FlowPlan.Document.File
import FlowPlan.Document.Kind
import FlowPlan.Document.Qualified
import FlowPlan.Document.Shape
import FlowPlan.Duration
import FlowPlan.Fault
import FlowPlan.Host
import FlowPlan.Instant
import FlowPlan.Json.Access
import FlowPlan.Json.Basic
import FlowPlan.Json.Display
import FlowPlan.Json.Reader
import FlowPlan.Json.Writer
import FlowPlan.Log.Excerpt
import FlowPlan.Log.Record
import FlowPlan.Main
import FlowPlan.Plan.Basic
import FlowPlan.Plan.Node
import FlowPlan.Plan.Order
import FlowPlan.Proofs.Acceptance
import FlowPlan.Proofs.Action
import FlowPlan.Proofs.Allocation
import FlowPlan.Proofs.Artifacts
import FlowPlan.Proofs.Atomicity
import FlowPlan.Proofs.Attempt
import FlowPlan.Proofs.Blame
import FlowPlan.Proofs.Bookkeeping
import FlowPlan.Proofs.Build
import FlowPlan.Proofs.Closing
import FlowPlan.Proofs.Contract
import FlowPlan.Proofs.Crash
import FlowPlan.Proofs.Custody
import FlowPlan.Proofs.Declaration
import FlowPlan.Proofs.Disk.Descent
import FlowPlan.Proofs.Disk.Growth
import FlowPlan.Proofs.Disk.Location
import FlowPlan.Proofs.Disk.Operation
import FlowPlan.Proofs.Document.Collisions
import FlowPlan.Proofs.Document.Definition
import FlowPlan.Proofs.Document.Grammar
import FlowPlan.Proofs.Document.Parts
import FlowPlan.Proofs.Document.Qualification
import FlowPlan.Proofs.Document.Refusal
import FlowPlan.Proofs.Document.Sorted
import FlowPlan.Proofs.Entrance
import FlowPlan.Proofs.Excerpt
import FlowPlan.Proofs.Failures
import FlowPlan.Proofs.Fanout
import FlowPlan.Proofs.Filing
import FlowPlan.Proofs.Gate
import FlowPlan.Proofs.History
import FlowPlan.Proofs.Interference
import FlowPlan.Proofs.Interruption
import FlowPlan.Proofs.Inventory
import FlowPlan.Proofs.Json.Reading
import FlowPlan.Proofs.Json.Reordering
import FlowPlan.Proofs.Json.Sorted
import FlowPlan.Proofs.Json.Texts
import FlowPlan.Proofs.Key
import FlowPlan.Proofs.Levels
import FlowPlan.Proofs.Lock
import FlowPlan.Proofs.Mirror
import FlowPlan.Proofs.Moments
import FlowPlan.Proofs.Operations
import FlowPlan.Proofs.Outcome
import FlowPlan.Proofs.Overlap
import FlowPlan.Proofs.Persistence
import FlowPlan.Proofs.Phases
import FlowPlan.Proofs.Pipeline
import FlowPlan.Proofs.Plan.Agreement
import FlowPlan.Proofs.Plan.Alike
import FlowPlan.Proofs.Plan.Compilation
import FlowPlan.Proofs.Plan.Definitions
import FlowPlan.Proofs.Plan.Encoding
import FlowPlan.Proofs.Plan.Execution
import FlowPlan.Proofs.Plan.Generation
import FlowPlan.Proofs.Plan.Judgement
import FlowPlan.Proofs.Plan.KeyOrder
import FlowPlan.Proofs.Plan.Misuse
import FlowPlan.Proofs.Plan.Order
import FlowPlan.Proofs.Plan.Repetition
import FlowPlan.Proofs.Plan.Views
import FlowPlan.Proofs.Pointers
import FlowPlan.Proofs.Propagation
import FlowPlan.Proofs.Qualifier
import FlowPlan.Proofs.Record
import FlowPlan.Proofs.Registry
import FlowPlan.Proofs.Reordering
import FlowPlan.Proofs.Requalification
import FlowPlan.Proofs.Scheduling
import FlowPlan.Proofs.Search
import FlowPlan.Proofs.Serial
import FlowPlan.Proofs.Settings
import FlowPlan.Proofs.Shelter
import FlowPlan.Proofs.Site
import FlowPlan.Proofs.Sound
import FlowPlan.Proofs.StageFailure
import FlowPlan.Proofs.Standard
import FlowPlan.Proofs.Status
import FlowPlan.Proofs.Steadiness
import FlowPlan.Proofs.Succession
import FlowPlan.Proofs.Supervision
import FlowPlan.Proofs.Survival
import FlowPlan.Proofs.Threading
import FlowPlan.Proofs.Verdicts
import FlowPlan.Proofs.Worker
import FlowPlan.Proofs.Workspace
import FlowPlan.Shell.Pattern
import FlowPlan.Shell.Programs
import FlowPlan.Shell.Run
import FlowPlan.Shell.Script
import FlowPlan.Site
import FlowPlan.Text.Blank
import FlowPlan.Text.Digit
import FlowPlan.Text.Lines
import FlowPlan.Text.Order
import FlowPlan.Text.Printable
import FlowPlan.Text.Quoted
import FlowPlan.Text.Ranges
import FlowPlan.Text.Upper
import FlowPlan.Text.Utf8
import FlowPlan.Text.Word
import FlowPlan.Unit.Basic
import FlowPlan.Unit.Catalog
import FlowPlan.Unit.Checks
import FlowPlan.Unit.Generators
import FlowPlan.Unit.Offer
import FlowPlan.Unit.Registry
import FlowPlan.Unit.Stages
