import RunMesh.Accounting
import RunMesh.Api
import RunMesh.Artifacts
import RunMesh.AtLeastOnce
import RunMesh.Attempts
import RunMesh.Auth
import RunMesh.Bookkeeping
import RunMesh.Budget
import RunMesh.Calls
import RunMesh.Cancellation
import RunMesh.Causality
import RunMesh.CompletionOrder
import RunMesh.Confinement
import RunMesh.Contracts
import RunMesh.Creation
import RunMesh.Delivery
import RunMesh.Drain
import RunMesh.Effects
import RunMesh.Events
import RunMesh.Exclusivity
import RunMesh.Expiry
import RunMesh.FailurePath
import RunMesh.FailureRace
import RunMesh.Fallible
import RunMesh.Fencing
import RunMesh.Firing
import RunMesh.Gate
import RunMesh.GoWorker
import RunMesh.Handlers
import RunMesh.Handover
import RunMesh.Input
import RunMesh.Integrity
import RunMesh.Interventions
import RunMesh.Isolation
import RunMesh.Json
import RunMesh.KeyLifecycle
import RunMesh.Ledger
import RunMesh.Live
import RunMesh.Locking
import RunMesh.Mediation
import RunMesh.Metering
import RunMesh.Misfire
import RunMesh.Moves
import RunMesh.Occurrences
import RunMesh.Outbox
import RunMesh.OutboxOrder
import RunMesh.OutboxSafety
import RunMesh.Pages
import RunMesh.Progress
import RunMesh.Provenance
import RunMesh.PublishRuns
import RunMesh.PythonSlot
import RunMesh.Queries
import RunMesh.Quiescence
import RunMesh.RateLimit
import RunMesh.ReadCommitted
import RunMesh.Readiness
import RunMesh.References
import RunMesh.Refinement
import RunMesh.Reopening
import RunMesh.Requests
import RunMesh.Resumption
import RunMesh.Rights
import RunMesh.Rounding
import RunMesh.Rpc
import RunMesh.Scheduler
import RunMesh.Schedules
import RunMesh.Schema
import RunMesh.Serialisation
import RunMesh.Statements
import RunMesh.Store
import RunMesh.Submission
import RunMesh.Success
import RunMesh.Table
import RunMesh.Tenancy
import RunMesh.Termination
import RunMesh.Timeline
import RunMesh.TopologicalOrder
import RunMesh.Trace
import RunMesh.Traffic
import RunMesh.Transactions
import RunMesh.Transitions
import RunMesh.Uploads
import RunMesh.Validation
import RunMesh.Versions
import RunMesh.Worker
import RunMesh.Workflow
