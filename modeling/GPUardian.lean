import GPUardian.Library.Strings
import GPUardian.Library.Slice
import GPUardian.Model.State
import GPUardian.Store.Edits
import GPUardian.Store.Bounds
import GPUardian.Store.Registration
import GPUardian.Store.Revocation
import GPUardian.Store.Operations
import GPUardian.Store.Persistence
import GPUardian.Store.Memory
import GPUardian.Library.Calendar
import GPUardian.Store.Booking
import GPUardian.Store.Rollback
import GPUardian.Enforce.Matching
import GPUardian.Enforce.Wildcards
import GPUardian.Enforce.Plan
import GPUardian.Enforce.Enforce
import GPUardian.Enforce.Scan
import GPUardian.Enforce.Eviction
import GPUardian.Enforce.EntitlementPruning
import GPUardian.Enforce.Terminations
import GPUardian.Enforce.SignalLog
import GPUardian.Enforce.Pass
import GPUardian.Enforce.Escalation
import GPUardian.Daemon.Cleanup
import GPUardian.Enforce.Entitlement
import GPUardian.Gateway.KeySync
import GPUardian.Gateway.FleetCache
import GPUardian.Gateway.Sessions
import GPUardian.Store.Shrinking
import GPUardian.Store.Groups
import GPUardian.Store.Pruning
import GPUardian.Store.Naming
import GPUardian.Store.Revoking
import GPUardian.History.Reconcile
import GPUardian.Enforce.Growth
import GPUardian.Enforce.Judgement
import GPUardian.Enforce.Inconclusive
import GPUardian.Enforce.Claims
import GPUardian.Enforce.Standing
import GPUardian.Store.Ownership
import GPUardian.Gateway.Access
import GPUardian.Store.KeyTable
import GPUardian.Daemon.Register
import GPUardian.Store.Replay
import GPUardian.Daemon.KeyCutover
import GPUardian.Store.KeyFrame
import GPUardian.Store.Loading
import GPUardian.Daemon.Monitor
import GPUardian.Store.Authorizations
import GPUardian.Store.Limits
import GPUardian.Store.Backing
import GPUardian.Daemon.Release
import GPUardian.Daemon.Removal
import GPUardian.Daemon.Quiescence
import GPUardian.Store.Keyed
import GPUardian.Daemon.Endings
import GPUardian.Daemon.RunCommand
import GPUardian.Daemon.RunJobs
import GPUardian.Library.Lines
import GPUardian.Library.Search
import GPUardian.Telemetry.Outbox
import GPUardian.Telemetry.Segments
import GPUardian.Telemetry.Paging
import GPUardian.Telemetry.Recovery
import GPUardian.Telemetry.Resuming
import GPUardian.Telemetry.Crashes
import GPUardian.Daemon.Emission
import GPUardian.Daemon.JobLifecycle
import GPUardian.Daemon.Sampling
import GPUardian.Daemon.Reachable
import GPUardian.Daemon.Commands
import GPUardian.History.Database
import GPUardian.History.Ingest
import GPUardian.History.Upserts
import GPUardian.History.Statements
import GPUardian.History.Quality
import GPUardian.History.Admission
import GPUardian.History.Provisioning
import GPUardian.History.Reporting
import GPUardian.History.Isolation
import GPUardian.History.Collection
import GPUardian.History.Pages
import GPUardian.History.Rollups
import GPUardian.History.Jobs
import GPUardian.History.ClaimedRuns
import GPUardian.History.Finishes
import GPUardian.History.Windows
import GPUardian.Store.TokenStatus
import GPUardian.Gateway.KeySnapshots
