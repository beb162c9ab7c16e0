import KitiumJobQueue.Foundations.Effects
import KitiumJobQueue.Foundations.Interference
import KitiumJobQueue.Foundations.Loops
import KitiumJobQueue.Foundations.Systems
import KitiumJobQueue.Foundations.Histories
import KitiumJobQueue.Foundations.Observations
import KitiumJobQueue.Foundations.Lists
import KitiumJobQueue.Foundations.SerialOrders
import KitiumJobQueue.Foundations.CachedRecord
import KitiumJobQueue.Foundations.Coroutines
import KitiumJobQueue.Foundations.Mirroring
import KitiumJobQueue.Foundations.RelyGuarantee
import KitiumJobQueue.Foundations.Accounts
import KitiumJobQueue.Foundations.SharedInvariants
import KitiumJobQueue.Foundations.LastingFacts
import KitiumJobQueue.Foundations.CommandSums
import KitiumJobQueue.Foundations.InsertionMaps
import KitiumJobQueue.Foundations.LiveSets
import KitiumJobQueue.Foundations.EventEmitters
import KitiumJobQueue.Foundations.Handles
import KitiumJobQueue.Foundations.Glob
import KitiumJobQueue.Foundations.OptionalField
import KitiumJobQueue.Foundations.Numbers
import KitiumJobQueue.Foundations.Backoff
import KitiumJobQueue.Foundations.Base64
import KitiumJobQueue.Foundations.Utf8
import KitiumJobQueue.Foundations.Json
import KitiumJobQueue.Foundations.JavaScript
import KitiumJobQueue.Bull.Options
import KitiumJobQueue.Bull.Queue
import KitiumJobQueue.Bull.Lifecycle
import KitiumJobQueue.Bull.Progress
import KitiumJobQueue.Bull.Retention
import KitiumJobQueue.Bull.Record
import KitiumJobQueue.Redis.Store
import KitiumJobQueue.Redis.Client
import KitiumJobQueue.Redis.Serial
import KitiumJobQueue.Config
import KitiumJobQueue.Configuration.Loader
import KitiumJobQueue.Configuration.Bounds
import KitiumJobQueue.Configuration.Priority
import KitiumJobQueue.CircuitBreaker.Basic
import KitiumJobQueue.CircuitBreaker.Reset
import KitiumJobQueue.CircuitBreaker.Callbacks
import KitiumJobQueue.CircuitBreaker.Gate
import KitiumJobQueue.CircuitBreaker.Ledger
import KitiumJobQueue.CircuitBreaker.Probes
import KitiumJobQueue.CircuitBreaker.Trips
import KitiumJobQueue.CircuitBreaker.Statistics
import KitiumJobQueue.CircuitBreaker.Registry
import KitiumJobQueue.AccessControl.Pattern
import KitiumJobQueue.AccessControl.Manager
import KitiumJobQueue.AccessControl.Isolation
import KitiumJobQueue.AccessControl.Provenance
import KitiumJobQueue.AccessControl.Serial
import KitiumJobQueue.AccessControl.Conditions
import KitiumJobQueue.AccessControl.AuditLog
import KitiumJobQueue.AccessControl.AuditTrail
import KitiumJobQueue.AccessControl.Revocation
import KitiumJobQueue.AccessControl.Tenants
import KitiumJobQueue.AccessControl.Serializability
import KitiumJobQueue.AccessControl.Directory
import KitiumJobQueue.Encryption.Manager
import KitiumJobQueue.Encryption.RoundTrip
import KitiumJobQueue.Encryption.Overlapping
import KitiumJobQueue.Encryption.Readability
import KitiumJobQueue.Encryption.ActiveKey
import KitiumJobQueue.Encryption.Rotation
import KitiumJobQueue.Encryption.Serial
import KitiumJobQueue.GlobalQueue.Manager
import KitiumJobQueue.GlobalQueue.Regions
import KitiumJobQueue.GlobalQueue.Failover
import KitiumJobQueue.GlobalQueue.Residency
import KitiumJobQueue.GlobalQueue.Replication
import KitiumJobQueue.GlobalQueue.Provenance
import KitiumJobQueue.GlobalQueue.SyncMode
import KitiumJobQueue.GlobalQueue.Resources
import KitiumJobQueue.GlobalQueue.Initialization
import KitiumJobQueue.GlobalQueue.Election
import KitiumJobQueue.Idempotency.Manager
import KitiumJobQueue.Idempotency.ExactlyOnce
import KitiumJobQueue.Idempotency.Clients
import KitiumJobQueue.Idempotency.Cleaning
import KitiumJobQueue.Idempotency.Expiry
import KitiumJobQueue.Idempotency.Provenance
import KitiumJobQueue.Fifo.Manager
import KitiumJobQueue.Events.Emission
import KitiumJobQueue.Adapters.Worker
import KitiumJobQueue.Dlq.Manager
import KitiumJobQueue.Dlq.Replay
import KitiumJobQueue.Dlq.Refusals
import KitiumJobQueue.Dlq.Clearing
import KitiumJobQueue.Dlq.Overlapping
import KitiumJobQueue.Dlq.Conservation
import KitiumJobQueue.JobQueue.Options
import KitiumJobQueue.JobQueue.Basic
import KitiumJobQueue.JobQueue.DeadLetter
import KitiumJobQueue.JobQueue.Processing
import KitiumJobQueue.JobQueue.Retries
import KitiumJobQueue.JobQueue.Rounds
import KitiumJobQueue.JobQueue.Replay
import KitiumJobQueue.JobQueue.Deduplication
import KitiumJobQueue.Facade.AddJob
import KitiumJobQueue.Status.Info
import KitiumJobQueue.Status.Query
import KitiumJobQueue.Status.Counts
import KitiumJobQueue.JobQueue.Listing
import KitiumJobQueue.Status.Agreement
import KitiumJobQueue.JobQueue.BulkRetry
import KitiumJobQueue.JobQueue.Limits
import KitiumJobQueue.JobQueue.Outcome
import KitiumJobQueue.JobQueue.Scheduling
import KitiumJobQueue.JobQueue.Overlapping
import KitiumJobQueue.JobQueue.Provenance
import KitiumJobQueue.JobQueue.Fates
import KitiumJobQueue.JobQueue.Closing
import KitiumJobQueue.Retry.Strategies
import KitiumJobQueue.Retry.Coordinator
import KitiumJobQueue.Orchestrator.Processing
import KitiumJobQueue.Orchestrator.Attempts
import KitiumJobQueue.JobChain.Dependencies
import KitiumJobQueue.JobChain.Reads
import KitiumJobQueue.JobChain.Orders
import KitiumJobQueue.JobChain.Workflows
import KitiumJobQueue.JobChain.Lifecycle
import KitiumJobQueue.Webhook.Manager
import KitiumJobQueue.Webhook.Delivery
import KitiumJobQueue.Webhook.Listing
import KitiumJobQueue.Webhook.History
import KitiumJobQueue.Webhook.Disabling
import KitiumJobQueue.Webhook.Provenance
import KitiumJobQueue.Webhook.Schedule
import KitiumJobQueue.Connection.Managers
import KitiumJobQueue.Connection.Leaks
import KitiumJobQueue.Container.Basic
import KitiumJobQueue.Container.Lifetimes
import KitiumJobQueue.Container.Bindings
import KitiumJobQueue.Container.Clients
import KitiumJobQueue.Facade.Construction
