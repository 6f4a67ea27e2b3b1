import GeoAssets.Background.Basic
import GeoAssets.Background.FailureLog
import GeoAssets.Background.Handle
import GeoAssets.Background.Script
import GeoAssets.Calendar.Date
import GeoAssets.Calendar.Timestamp
import GeoAssets.Catalog.Asset
import GeoAssets.Catalog.AssetType
import GeoAssets.Catalog.ChangeLog
import GeoAssets.Catalog.Field
import GeoAssets.Catalog.Status
import GeoAssets.Catalog.Store.Assets
import GeoAssets.Catalog.Store.Basic
import GeoAssets.Catalog.Store.Tasks
import GeoAssets.Catalog.Store.Versions
import GeoAssets.Catalog.Version
import GeoAssets.Compute.Backoff
import GeoAssets.Compute.Cluster
import GeoAssets.Compute.Graph
import GeoAssets.Compute.Job
import GeoAssets.Compute.Links
import GeoAssets.Directory
import GeoAssets.Error
import GeoAssets.Identifier.Basic
import GeoAssets.Identifier.Ulid
import GeoAssets.Json.Codec
import GeoAssets.Json.Layout
import GeoAssets.Json.Printer
import GeoAssets.Json.Reader
import GeoAssets.Json.Value
import GeoAssets.Lifecycle.Activity
import GeoAssets.Lifecycle.Locks
import GeoAssets.Lifecycle.Outcome
import GeoAssets.Lifecycle.Requests
import GeoAssets.Lifecycle.Settlement
import GeoAssets.Lifecycle.Step
import GeoAssets.Lifecycle.Submission
import GeoAssets.Lifecycle.Teardown
import GeoAssets.Lifecycle.TileCache
import GeoAssets.Lifecycle.World
import GeoAssets.Location
import GeoAssets.Measurement
import GeoAssets.Options.Basic
import GeoAssets.Options.FileName
import GeoAssets.Options.Index
import GeoAssets.Options.Partition
import GeoAssets.Options.Source
import GeoAssets.Options.Tiles
import GeoAssets.Orchestrator
import GeoAssets.Plan.Basic
import GeoAssets.Plan.Brief
import GeoAssets.Plan.Chunk
import GeoAssets.Plan.Export
import GeoAssets.Plan.Queue
import GeoAssets.Plan.Table
import GeoAssets.Plan.Vector
import GeoAssets.Proofs.Background.Failures
import GeoAssets.Proofs.Background.Handles
import GeoAssets.Proofs.Background.Rounds
import GeoAssets.Proofs.Background.Turns
import GeoAssets.Proofs.Catalog.Bare
import GeoAssets.Proofs.Catalog.Consistent
import GeoAssets.Proofs.Catalog.DefaultsLead
import GeoAssets.Proofs.Catalog.Emptying
import GeoAssets.Proofs.Catalog.History
import GeoAssets.Proofs.Catalog.Latest
import GeoAssets.Proofs.Catalog.Operation
import GeoAssets.Proofs.Catalog.Removal
import GeoAssets.Proofs.Catalog.Revision
import GeoAssets.Proofs.Catalog.WellFormed
import GeoAssets.Proofs.Compute.Backoff
import GeoAssets.Proofs.Compute.ChangedJobs
import GeoAssets.Proofs.Compute.Circles
import GeoAssets.Proofs.Compute.Graph
import GeoAssets.Proofs.Compute.Links
import GeoAssets.Proofs.Compute.Order
import GeoAssets.Proofs.Compute.Steady
import GeoAssets.Proofs.Compute.Ties
import GeoAssets.Proofs.Directory
import GeoAssets.Proofs.Json.Codec
import GeoAssets.Proofs.Json.Text
import GeoAssets.Proofs.Json.Tokens
import GeoAssets.Proofs.Lifecycle.Agree
import GeoAssets.Proofs.Lifecycle.Alike
import GeoAssets.Proofs.Lifecycle.Commit
import GeoAssets.Proofs.Lifecycle.Decision
import GeoAssets.Proofs.Lifecycle.Recording
import GeoAssets.Proofs.Lifecycle.Settlement
import GeoAssets.Proofs.Lifecycle.Step
import GeoAssets.Proofs.Lifecycle.Submission
import GeoAssets.Proofs.Lifecycle.Teardown
import GeoAssets.Proofs.Lifecycle.Within
import GeoAssets.Proofs.Lifecycle.World
import GeoAssets.Proofs.Location
import GeoAssets.Proofs.Options.Source
import GeoAssets.Proofs.Pipeline.Accepted
import GeoAssets.Proofs.Pipeline.Blame
import GeoAssets.Proofs.Pipeline.Completion
import GeoAssets.Proofs.Pipeline.Confluence
import GeoAssets.Proofs.Pipeline.Law
import GeoAssets.Proofs.Pipeline.Reach
import GeoAssets.Proofs.Pipeline.Registration
import GeoAssets.Proofs.Pipeline.Reports
import GeoAssets.Proofs.Pipeline.Stage
import GeoAssets.Proofs.Pipeline.Submitted
import GeoAssets.Proofs.Pipeline.View
import GeoAssets.Proofs.Pipeline.Watched
import GeoAssets.Proofs.Plan.Accepted
import GeoAssets.Proofs.Plan.Connections
import GeoAssets.Proofs.Plan.Division
import GeoAssets.Proofs.Plan.Files
import GeoAssets.Proofs.Plan.FirstFile
import GeoAssets.Proofs.Plan.IndexNames
import GeoAssets.Proofs.Plan.Layers
import GeoAssets.Proofs.Plan.Names
import GeoAssets.Proofs.Plan.Parts
import GeoAssets.Proofs.Plan.Queue
import GeoAssets.Proofs.Plan.QueueEnds
import GeoAssets.Proofs.Plan.Sources
import GeoAssets.Proofs.Run.Alike
import GeoAssets.Proofs.Run.Answer
import GeoAssets.Proofs.Run.AssetIsolation
import GeoAssets.Proofs.Run.AssetTeardown
import GeoAssets.Proofs.Run.Atomic
import GeoAssets.Proofs.Run.Basic
import GeoAssets.Proofs.Run.Command
import GeoAssets.Proofs.Run.Consistent
import GeoAssets.Proofs.Run.Defaults
import GeoAssets.Proofs.Run.Emptying
import GeoAssets.Proofs.Run.ExportFields
import GeoAssets.Proofs.Run.ExportTargets
import GeoAssets.Proofs.Run.Fields
import GeoAssets.Proofs.Run.History
import GeoAssets.Proofs.Run.Ids
import GeoAssets.Proofs.Run.Inspection
import GeoAssets.Proofs.Run.Invariant
import GeoAssets.Proofs.Run.Isolation
import GeoAssets.Proofs.Run.Latest
import GeoAssets.Proofs.Run.Pieces
import GeoAssets.Proofs.Run.Places
import GeoAssets.Proofs.Run.Reach
import GeoAssets.Proofs.Run.Recreation
import GeoAssets.Proofs.Run.Refused
import GeoAssets.Proofs.Run.Removal
import GeoAssets.Proofs.Run.RequestedCaches
import GeoAssets.Proofs.Run.Saving
import GeoAssets.Proofs.Run.Settled
import GeoAssets.Proofs.Run.Settling
import GeoAssets.Proofs.Run.Sound
import GeoAssets.Proofs.Run.Teardown
import GeoAssets.Proofs.Run.TeardownAttempts
import GeoAssets.Proofs.Run.TileCaches
import GeoAssets.Proofs.Run.Work
import GeoAssets.Proofs.Settings
import GeoAssets.Proofs.Text.Tidy
import GeoAssets.Proofs.Wire
import GeoAssets.Services
import GeoAssets.Settings.Basic
import GeoAssets.Settings.LogFormat
import GeoAssets.Settings.Variables
import GeoAssets.Text.Blank
import GeoAssets.Text.Numeral
import GeoAssets.Text.Quoted
import GeoAssets.Text.Split
import GeoAssets.Text.Unseen
