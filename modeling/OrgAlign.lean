import OrgAlign.Canonical
import OrgAlign.Command.Arguments
import OrgAlign.Command.Paths
import OrgAlign.Command.Report
import OrgAlign.Command.Run
import OrgAlign.Config.Change
import OrgAlign.Config.Decode
import OrgAlign.Config.Edit
import OrgAlign.Config.Encode
import OrgAlign.Config.Error
import OrgAlign.Config.Format
import OrgAlign.Config.Rename
import OrgAlign.Config.Schema
import OrgAlign.Config.Workspace
import OrgAlign.Diff.Change
import OrgAlign.Diff.Compact
import OrgAlign.Diff.Edit
import OrgAlign.Diff.Unified
import OrgAlign.Digest.Sha256
import OrgAlign.Drift.Converge
import OrgAlign.Drift.Detect
import OrgAlign.Failure
import OrgAlign.Files.Disk
import OrgAlign.Files.Repository
import OrgAlign.Finding
import OrgAlign.Guard.Enforce
import OrgAlign.Guard.Plan
import OrgAlign.Json.Number
import OrgAlign.Json.Reader
import OrgAlign.Json.Token
import OrgAlign.Json.Writer
import OrgAlign.KeyedMap
import OrgAlign.LegacyRole
import OrgAlign.Main
import OrgAlign.Manifest
import OrgAlign.Number.Binary64
import OrgAlign.Number.FloatText
import OrgAlign.Number.Shortest
import OrgAlign.Org.Organization
import OrgAlign.Org.Record
import OrgAlign.Org.Snapshot
import OrgAlign.Org.SnapshotFile
import OrgAlign.Org.Tree
import OrgAlign.Path
import OrgAlign.Pipeline.Publish
import OrgAlign.Pipeline.Run
import OrgAlign.Pipeline.World
import OrgAlign.Proofs.Ancestry
import OrgAlign.Proofs.Config.Accounts
import OrgAlign.Proofs.Config.Documents
import OrgAlign.Proofs.Config.KeyedMaps
import OrgAlign.Proofs.Config.Layers
import OrgAlign.Proofs.Config.Patched
import OrgAlign.Proofs.Config.Reload
import OrgAlign.Proofs.Config.RenamedKeys
import OrgAlign.Proofs.Config.Renames
import OrgAlign.Proofs.Config.Repoint
import OrgAlign.Proofs.Config.Repointed
import OrgAlign.Proofs.Config.Sheets
import OrgAlign.Proofs.Config.Traceless
import OrgAlign.Proofs.Drift.Amendment
import OrgAlign.Proofs.Drift.Creation
import OrgAlign.Proofs.Drift.Frame
import OrgAlign.Proofs.Drift.FreshRead
import OrgAlign.Proofs.Drift.InPlace
import OrgAlign.Proofs.Drift.Isolation
import OrgAlign.Proofs.Drift.Minimal
import OrgAlign.Proofs.Drift.Moves
import OrgAlign.Proofs.Drift.Order
import OrgAlign.Proofs.Drift.OwnKeys
import OrgAlign.Proofs.Drift.Primary
import OrgAlign.Proofs.Drift.Records
import OrgAlign.Proofs.Drift.References
import OrgAlign.Proofs.Drift.Relocation
import OrgAlign.Proofs.Drift.Repeated
import OrgAlign.Proofs.Drift.Steps
import OrgAlign.Proofs.Drift.Transfers
import OrgAlign.Proofs.Drift.UnitPaths
import OrgAlign.Proofs.Files.Asked
import OrgAlign.Proofs.Files.Clients
import OrgAlign.Proofs.Files.Entries
import OrgAlign.Proofs.Files.Fingerprint
import OrgAlign.Proofs.Files.Halted
import OrgAlign.Proofs.Files.Head
import OrgAlign.Proofs.Files.Identity
import OrgAlign.Proofs.Files.Listing
import OrgAlign.Proofs.Files.Outside
import OrgAlign.Proofs.Files.Replace
import OrgAlign.Proofs.Files.Routes
import OrgAlign.Proofs.Files.Sound
import OrgAlign.Proofs.Files.Texts
import OrgAlign.Proofs.Guard.Governed
import OrgAlign.Proofs.Guard.Isolation
import OrgAlign.Proofs.Guard.Limits
import OrgAlign.Proofs.Guard.Outcome
import OrgAlign.Proofs.Guard.Partition
import OrgAlign.Proofs.Guard.Plan
import OrgAlign.Proofs.Guard.Report
import OrgAlign.Proofs.Guard.Steps
import OrgAlign.Proofs.Json.RoundTrip
import OrgAlign.Proofs.KeyedMap
import OrgAlign.Proofs.KeyedMap.Updates
import OrgAlign.Proofs.Org.Attachments
import OrgAlign.Proofs.Org.CallLog
import OrgAlign.Proofs.Org.Hierarchy
import OrgAlign.Proofs.Org.InStep
import OrgAlign.Proofs.Org.Mutations
import OrgAlign.Proofs.Org.NewUnits
import OrgAlign.Proofs.Org.Places
import OrgAlign.Proofs.Org.Reachable
import OrgAlign.Proofs.Org.Reading
import OrgAlign.Proofs.Path
import OrgAlign.Proofs.Pipeline.AtRest
import OrgAlign.Proofs.Pipeline.Published
import OrgAlign.Proofs.Pipeline.SecondPass
import OrgAlign.Proofs.Pipeline.SecondRun
import OrgAlign.Proofs.Pipeline.StageOrder
import OrgAlign.Proofs.Pipeline.Stages
import OrgAlign.Proofs.Reconcile.Accounted
import OrgAlign.Proofs.Reconcile.Admission
import OrgAlign.Proofs.Reconcile.CleanPass
import OrgAlign.Proofs.Reconcile.Coverage
import OrgAlign.Proofs.Reconcile.CrossCheck
import OrgAlign.Proofs.Reconcile.Judgement
import OrgAlign.Proofs.Reconcile.Kinds
import OrgAlign.Proofs.Reconcile.Ledger
import OrgAlign.Proofs.Reconcile.Repeated
import OrgAlign.Proofs.Reconcile.ReportedOnce
import OrgAlign.Proofs.Reconcile.Resolution
import OrgAlign.Proofs.Reconcile.Statuses
import OrgAlign.Proofs.Reconcile.Steps
import OrgAlign.Proofs.Sorting
import OrgAlign.Proofs.State.Published
import OrgAlign.Proofs.State.Store
import OrgAlign.Proofs.Timestamp
import OrgAlign.Proofs.Walks
import OrgAlign.Reconcile.Legacy
import OrgAlign.Reconcile.Match
import OrgAlign.Reconcile.Pass
import OrgAlign.Sorting
import OrgAlign.Source
import OrgAlign.State.Published
import OrgAlign.State.Store
import OrgAlign.Text.Ascii
import OrgAlign.Text.Blank
import OrgAlign.Text.Hex
import OrgAlign.Text.Table
import OrgAlign.Text.Width
import OrgAlign.Timestamp
import OrgAlign.Value
import OrgAlign.Yaml.Chars
import OrgAlign.Yaml.Cursor
import OrgAlign.Yaml.Event
import OrgAlign.Yaml.Node
import OrgAlign.Yaml.Reader
import OrgAlign.Yaml.Scalar
import OrgAlign.Yaml.ScalarText
import OrgAlign.Yaml.Tag
import OrgAlign.Yaml.Token
import OrgAlign.Yaml.Writer
