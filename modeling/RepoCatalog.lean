import RepoCatalog.Chunks
import RepoCatalog.Conflict
import RepoCatalog.Dict
import RepoCatalog.Dict.Lemmas
import RepoCatalog.Diff
import RepoCatalog.EnvFile.Entry
import RepoCatalog.EnvFile.Error
import RepoCatalog.EnvFile.Folder
import RepoCatalog.EnvFile.Lines
import RepoCatalog.EnvFile.Value
import RepoCatalog.Json.Binary64
import RepoCatalog.Json.Decode
import RepoCatalog.Json.Parser
import RepoCatalog.Json.Printer
import RepoCatalog.Json.Value
import RepoCatalog.Kind
import RepoCatalog.Listing
import RepoCatalog.Listing.Relay
import RepoCatalog.Membership
import RepoCatalog.Proofs.Acquired
import RepoCatalog.Proofs.Again
import RepoCatalog.Proofs.Ahead
import RepoCatalog.Proofs.AllOrNothing
import RepoCatalog.Proofs.Allotment
import RepoCatalog.Proofs.BackOff
import RepoCatalog.Proofs.Batch
import RepoCatalog.Proofs.BoundedWork
import RepoCatalog.Proofs.Bystanders
import RepoCatalog.Proofs.Calendar
import RepoCatalog.Proofs.Calm
import RepoCatalog.Proofs.Carried
import RepoCatalog.Proofs.Catalog
import RepoCatalog.Proofs.Ceilings
import RepoCatalog.Proofs.Changes
import RepoCatalog.Proofs.Coherent
import RepoCatalog.Proofs.Confined
import RepoCatalog.Proofs.Conflict
import RepoCatalog.Proofs.Contested
import RepoCatalog.Proofs.Converge
import RepoCatalog.Proofs.Descent
import RepoCatalog.Proofs.Dict
import RepoCatalog.Proofs.Diff
import RepoCatalog.Proofs.Due
import RepoCatalog.Proofs.Earliest
import RepoCatalog.Proofs.Early
import RepoCatalog.Proofs.Edits
import RepoCatalog.Proofs.Effects
import RepoCatalog.Proofs.Failures
import RepoCatalog.Proofs.FewestEdits
import RepoCatalog.Proofs.Fields
import RepoCatalog.Proofs.FirstJob
import RepoCatalog.Proofs.Flight
import RepoCatalog.Proofs.Followed
import RepoCatalog.Proofs.Heeded
import RepoCatalog.Proofs.Interleaved
import RepoCatalog.Proofs.Kept
import RepoCatalog.Proofs.Lasting
import RepoCatalog.Proofs.LateReports
import RepoCatalog.Proofs.Layers
import RepoCatalog.Proofs.Leaves
import RepoCatalog.Proofs.LowerCase
import RepoCatalog.Proofs.Moves
import RepoCatalog.Proofs.Names
import RepoCatalog.Proofs.Namesakes
import RepoCatalog.Proofs.Obstacle
import RepoCatalog.Proofs.Orderly
import RepoCatalog.Proofs.Outcome
import RepoCatalog.Proofs.Overwritten
import RepoCatalog.Proofs.Owners
import RepoCatalog.Proofs.Partition
import RepoCatalog.Proofs.Placement
import RepoCatalog.Proofs.Plan
import RepoCatalog.Proofs.Precedence
import RepoCatalog.Proofs.Privacy
import RepoCatalog.Proofs.Profile
import RepoCatalog.Proofs.Quiet
import RepoCatalog.Proofs.Reach
import RepoCatalog.Proofs.Rearranged
import RepoCatalog.Proofs.Records
import RepoCatalog.Proofs.Redacted
import RepoCatalog.Proofs.Relay
import RepoCatalog.Proofs.Repeated
import RepoCatalog.Proofs.Resets
import RepoCatalog.Proofs.Results
import RepoCatalog.Proofs.Revision
import RepoCatalog.Proofs.Revoked
import RepoCatalog.Proofs.Save
import RepoCatalog.Proofs.Schedules
import RepoCatalog.Proofs.Settled
import RepoCatalog.Proofs.SideBySide
import RepoCatalog.Proofs.Single
import RepoCatalog.Proofs.Spelling
import RepoCatalog.Proofs.Stake
import RepoCatalog.Proofs.Standing
import RepoCatalog.Proofs.Step
import RepoCatalog.Proofs.StoreRun
import RepoCatalog.Proofs.Streamed
import RepoCatalog.Proofs.Success
import RepoCatalog.Proofs.Survivors
import RepoCatalog.Proofs.Sweep
import RepoCatalog.Proofs.Tidings
import RepoCatalog.Proofs.Tidy
import RepoCatalog.Proofs.Timestamp
import RepoCatalog.Proofs.Truth
import RepoCatalog.Proofs.Unhindered
import RepoCatalog.Proofs.Urn
import RepoCatalog.Proofs.Usable
import RepoCatalog.Proofs.UserAdded
import RepoCatalog.Proofs.Userinfo
import RepoCatalog.Proofs.Winner
import RepoCatalog.Proofs.WorkedOff
import RepoCatalog.Proofs.Writes
import RepoCatalog.Queue
import RepoCatalog.Queue.Job
import RepoCatalog.Queue.State
import RepoCatalog.Quota
import RepoCatalog.Record.Decode
import RepoCatalog.Record.Encode
import RepoCatalog.Record.Tables
import RepoCatalog.Repo
import RepoCatalog.Resync
import RepoCatalog.Service
import RepoCatalog.Settings.Basic
import RepoCatalog.Settings.Database
import RepoCatalog.Settings.Loader
import RepoCatalog.Settings.Record
import RepoCatalog.Settings.UserMode
import RepoCatalog.Source.Error
import RepoCatalog.Source.Registry
import RepoCatalog.Source.Static
import RepoCatalog.Spec
import RepoCatalog.Store
import RepoCatalog.Store.Catalog
import RepoCatalog.Store.Error
import RepoCatalog.Store.Memberships
import RepoCatalog.Store.Repos
import RepoCatalog.Store.Row
import RepoCatalog.Store.Schema
import RepoCatalog.Store.Services
import RepoCatalog.Store.Table
import RepoCatalog.Sync
import RepoCatalog.Sync.Batch
import RepoCatalog.Sync.Error
import RepoCatalog.Sync.Single
import RepoCatalog.Sync.Stream
import RepoCatalog.Sync.Syncer
import RepoCatalog.Sync.World
import RepoCatalog.Text.Ascii
import RepoCatalog.Text.Blank
import RepoCatalog.Text.CaseTable
import RepoCatalog.Text.CodeRange
import RepoCatalog.Text.Decimal
import RepoCatalog.Text.HiddenTable
import RepoCatalog.Text.LowerCase
import RepoCatalog.Text.Quoted
import RepoCatalog.Text.Split
import RepoCatalog.Text.WordTable
import RepoCatalog.Time.Date
import RepoCatalog.Time.Duration
import RepoCatalog.Time.Instant
import RepoCatalog.Time.Timestamp
import RepoCatalog.Url.Address
import RepoCatalog.Url.Basic
import RepoCatalog.Url.Domain
import RepoCatalog.Url.Parser
import RepoCatalog.Url.Percent
import RepoCatalog.Url.Punycode
import RepoCatalog.Urn
import RepoCatalog.Worker
