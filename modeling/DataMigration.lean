import DataMigration.Calendar.Date
import DataMigration.Calendar.Instant
import DataMigration.Calendar.Read
import DataMigration.CommandLine.Arguments
import DataMigration.CommandLine.Command
import DataMigration.CommandLine.Disk
import DataMigration.CommandLine.Execute
import DataMigration.CommandLine.Form
import DataMigration.Config.Basic
import DataMigration.Config.Source
import DataMigration.Connectors
import DataMigration.Decimal.Binary64
import DataMigration.Decimal.Layout
import DataMigration.Decimal.Read
import DataMigration.Decimal.Rounding
import DataMigration.Decimal.Shortest
import DataMigration.Dict
import DataMigration.Document.Record
import DataMigration.Document.Scalar
import DataMigration.Document.Tree
import DataMigration.Extract.Extraction
import DataMigration.Extract.Extractor
import DataMigration.Files.Basic
import DataMigration.Files.Error
import DataMigration.Files.Path
import DataMigration.Finding
import DataMigration.Json.Read
import DataMigration.Json.Write
import DataMigration.Load.Loader
import DataMigration.Load.Memory
import DataMigration.Load.Rate
import DataMigration.Load.Result
import DataMigration.Main
import DataMigration.Mapping.Apply
import DataMigration.Mapping.Basic
import DataMigration.Mapping.Condition
import DataMigration.Mapping.Contract
import DataMigration.Mapping.Document
import DataMigration.Mapping.Entity
import DataMigration.Mapping.Field
import DataMigration.Mapping.OperatorName
import DataMigration.Mapping.Order
import DataMigration.Migration.Error
import DataMigration.Migration.Extracting
import DataMigration.Migration.Loading
import DataMigration.Migration.Preview
import DataMigration.Migration.Rollback
import DataMigration.Migration.Run
import DataMigration.Migration.State
import DataMigration.Migration.Transforming
import DataMigration.Migration.Validating
import DataMigration.Operator.Arithmetic
import DataMigration.Operator.Basic
import DataMigration.Operator.Builtin
import DataMigration.Operator.Choice
import DataMigration.Operator.Registry
import DataMigration.Operator.Structure
import DataMigration.Operator.Time
import DataMigration.Operator.Wording
import DataMigration.Path.Lookup
import DataMigration.Path.Segment
import DataMigration.Path.Write
import DataMigration.Progress.Control
import DataMigration.Progress.Event
import DataMigration.Proofs.Calendar.Days
import DataMigration.Proofs.Calendar.Epoch
import DataMigration.Proofs.Dict
import DataMigration.Proofs.Document.Canonical
import DataMigration.Proofs.Document.Fields
import DataMigration.Proofs.Document.Once
import DataMigration.Proofs.Document.Written
import DataMigration.Proofs.Extract.Identity
import DataMigration.Proofs.Extract.Paging
import DataMigration.Proofs.Files.Writing
import DataMigration.Proofs.Load.Memory
import DataMigration.Proofs.Load.Sequential
import DataMigration.Proofs.Mapping.Acceptance
import DataMigration.Proofs.Mapping.Blocked
import DataMigration.Proofs.Mapping.Conditions
import DataMigration.Proofs.Mapping.Contract
import DataMigration.Proofs.Mapping.Cycles
import DataMigration.Proofs.Mapping.DependencyOrder
import DataMigration.Proofs.Mapping.EntityOrder
import DataMigration.Proofs.Mapping.Identity
import DataMigration.Proofs.Mapping.Isolation
import DataMigration.Proofs.Mapping.LoadOrder
import DataMigration.Proofs.Mapping.OwnSource
import DataMigration.Proofs.Mapping.Parts
import DataMigration.Proofs.Mapping.Plantings
import DataMigration.Proofs.Mapping.Reading
import DataMigration.Proofs.Mapping.Reordering
import DataMigration.Proofs.Mapping.RoundTrip
import DataMigration.Proofs.Migration.Accounting
import DataMigration.Proofs.Migration.Artifacts
import DataMigration.Proofs.Migration.Batches
import DataMigration.Proofs.Migration.Batching
import DataMigration.Proofs.Migration.Budget
import DataMigration.Proofs.Migration.Checkpoint
import DataMigration.Proofs.Migration.Conservation
import DataMigration.Proofs.Migration.Delivery
import DataMigration.Proofs.Migration.Ending
import DataMigration.Proofs.Migration.Flow
import DataMigration.Proofs.Migration.Interruption
import DataMigration.Proofs.Migration.Loadable
import DataMigration.Proofs.Migration.LoadingOrder
import DataMigration.Proofs.Migration.Lockstep
import DataMigration.Proofs.Migration.Loops
import DataMigration.Proofs.Migration.Mixing
import DataMigration.Proofs.Migration.Moves
import DataMigration.Proofs.Migration.Origins
import DataMigration.Proofs.Migration.Previewing
import DataMigration.Proofs.Migration.Reachable
import DataMigration.Proofs.Migration.Records
import DataMigration.Proofs.Migration.Repeating
import DataMigration.Proofs.Migration.RollingBack
import DataMigration.Proofs.Migration.Standstill
import DataMigration.Proofs.Migration.Sweeping
import DataMigration.Proofs.Migration.Telling
import DataMigration.Proofs.Migration.Twin
import DataMigration.Proofs.Migration.Unasked
import DataMigration.Proofs.Operator.PhoneNumbers
import DataMigration.Proofs.Operator.Tiers
import DataMigration.Proofs.Path.Joined
import DataMigration.Proofs.Path.ReadBack
import DataMigration.Proofs.Path.Write
import DataMigration.Proofs.Record.Distinct
import DataMigration.Proofs.Record.Fields
import DataMigration.Proofs.Record.Grouping
import DataMigration.Proofs.Record.Merge
import DataMigration.Proofs.Registry.Drafts
import DataMigration.Proofs.Registry.ReadableSources
import DataMigration.Proofs.Registry.RequiredTargets
import DataMigration.Proofs.Registry.Spellings
import DataMigration.Proofs.Registry.WrittenFields
import DataMigration.Proofs.Run.Counting
import DataMigration.Proofs.Run.History
import DataMigration.Proofs.Schema.Acceptance
import DataMigration.Proofs.Schema.Accumulation
import DataMigration.Proofs.Schema.Inference
import DataMigration.Proofs.Schema.Parts
import DataMigration.Proofs.Schema.Placement
import DataMigration.Proofs.Schema.Required
import DataMigration.Proofs.Schema.RoundTrip
import DataMigration.Proofs.Schema.Sighting
import DataMigration.Proofs.Text
import DataMigration.Proofs.Text.Case
import DataMigration.Proofs.Validation.Conformance
import DataMigration.Proofs.Validation.Legible
import DataMigration.Proofs.Validation.Merging
import DataMigration.Proofs.Validation.Pointing
import DataMigration.Proofs.Yaml.Leaves
import DataMigration.Proofs.Yaml.Reproduced
import DataMigration.Record.Merge
import DataMigration.Record.Source
import DataMigration.Record.Target
import DataMigration.Registry.Basic
import DataMigration.Registry.Draft
import DataMigration.Registry.Preflight
import DataMigration.Registry.Store
import DataMigration.Report.Basic
import DataMigration.Report.Format
import DataMigration.Run.Basic
import DataMigration.Run.Status
import DataMigration.Run.Step
import DataMigration.Schema.Document
import DataMigration.Schema.Entity
import DataMigration.Schema.Field
import DataMigration.Schema.FieldType
import DataMigration.Schema.Infer
import DataMigration.Stop
import DataMigration.Text.Blank
import DataMigration.Text.Case
import DataMigration.Text.CaseTable
import DataMigration.Text.Cut
import DataMigration.Text.Digit
import DataMigration.Text.Ranges
import DataMigration.Text.Word
import DataMigration.Validation.Record
import DataMigration.Validation.Report
import DataMigration.Validation.Rule
import DataMigration.Value.Basic
import DataMigration.Value.Number
import DataMigration.Yaml.Cursor
import DataMigration.Yaml.Read
import DataMigration.Yaml.ScalarText
import DataMigration.Yaml.Token
import DataMigration.Yaml.Write
