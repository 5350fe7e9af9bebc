import WaslaCore.Interleaving.Process
import WaslaCore.Interleaving.Logic
import WaslaCore.Data.Table
import WaslaCore.Money.Domain
import WaslaCore.Platform.UnitOfWork
import WaslaCore.Money.Repository
import WaslaCore.Fulfillment.Domain
import WaslaCore.Fulfillment.Repository
import WaslaCore.Store
import WaslaCore.Money.Service
import WaslaCore.Fulfillment.Service
import WaslaCore.Operations
import WaslaCore.Conduct
import WaslaCore.Money.Agreement
import WaslaCore.Laws
import WaslaCore.Money.Effects
import WaslaCore.Money.Reconciliation
import WaslaCore.Money.Lasting
import WaslaCore.Money.Finality
import WaslaCore.Money.Overdraft
import WaslaCore.Fulfillment.Effects
import WaslaCore.Fulfillment.Closure
import WaslaCore.Fulfillment.Losers
import WaslaCore.Fulfillment.Settlement
import WaslaCore.Eventing.Queues
import WaslaCore.Eventing.Bus
import WaslaCore.Eventing.Workers
import WaslaCore.Eventing.Once
import WaslaCore.Eventing.Reached
import WaslaCore.Identity.Domain
import WaslaCore.Identity.Repository
import WaslaCore.Identity.Service
import WaslaCore.Identity.Access
import WaslaCore.Data.Lease
import WaslaCore.Eventing.Deliveries
import WaslaCore.Identity.Granting
import WaslaCore.Eventing.Fencing
import WaslaCore.Eventing.Poison
import WaslaCore.Interleaving.Tokens
import WaslaCore.Notification.Repository
import WaslaCore.Notification.Dispatcher
import WaslaCore.Notification.InFlight
import WaslaCore.Http.Json
import WaslaCore.Http.Retry
import WaslaCore.Http.Router
import WaslaCore.Http.Idempotent
import WaslaCore.Http.Replay
import WaslaCore.Eventing.FannedOut
import WaslaCore.Interleaving.Embed
import WaslaCore.Billing.Domain
import WaslaCore.Billing.Repository
import WaslaCore.Billing.Service
import WaslaCore.Billing.Conduct
import WaslaCore.Billing.Announced
import WaslaCore.Money.Holds
import WaslaCore.Billing.Settled
import WaslaCore.Interleaving.Race
import WaslaCore.Money.Racing
import WaslaCore.Money.RacingAuthorize
import WaslaCore.Money.RacingCapture
import WaslaCore.Identity.Registering
import WaslaCore.Data.Undo
import WaslaCore.Platform.Journal
import WaslaCore.Retries
import WaslaCore.Platform.Atomicity
import WaslaCore.Platform.Overlap
import WaslaCore.Fulfillment.Marker
import WaslaCore.Fulfillment.OwnJob
import WaslaCore.Fulfillment.InMemory
import WaslaCore.Fulfillment.OneHold
import WaslaCore.Fulfillment.Intake
import WaslaCore.Interleaving.Serial
import WaslaCore.Money.SerialRuns
import WaslaCore.Billing.Stopped
import WaslaCore.Data.Budget
import WaslaCore.Eventing.Budgets
import WaslaCore.Eventing.WithinBudget
import WaslaCore.Billing.Tiled
import WaslaCore.Billing.OneLive
import WaslaCore.Billing.Released
import WaslaCore.Http.Answering
import WaslaCore.Http.Answered
import WaslaCore.Reputation.Domain
import WaslaCore.Reputation.Repository
import WaslaCore.Reputation.Service
import WaslaCore.Reputation.SignalledOnce
import WaslaCore.Interleaving.Completion
import WaslaCore.Reputation.Ordering
import WaslaCore.Interleaving.Tally
import WaslaCore.Notification.SendBound
import WaslaCore.Eventing.Ingress
import WaslaCore.Eventing.Trusted
import WaslaCore.Http.RateLimit
import WaslaCore.Data.Selection
import WaslaCore.Eventing.Selection
import WaslaCore.Http.Canonical
import WaslaCore.Http.Distinct
import WaslaCore.Billing.Calm
import WaslaCore.Billing.Collectable
import WaslaCore.Billing.Replayed
import WaslaCore.Money.Referenced
import WaslaCore.Eventing.DeliverySummaries
import WaslaCore.Eventing.Summaries
import WaslaCore.Billing.Advancing
import WaslaCore.Billing.Anchored
import WaslaCore.Billing.Entitled
import WaslaCore.Billing.Sweep
import WaslaCore.Billing.Usage
import WaslaCore.Billing.UsageOnce
import WaslaCore.Eventing.Readable
import WaslaCore.Data.CodeUnits
import WaslaCore.Data.Paging
import WaslaCore.Eventing.Canonical
import WaslaCore.Eventing.Positions
import WaslaCore.Http.Body
import WaslaCore.Http.Grammar
import WaslaCore.Data.Instants
import WaslaCore.Eventing.TimeBounds
import WaslaCore.Replay.Predicted
import WaslaCore.Replay.Resumed
import WaslaCore.Data.Restriction
import WaslaCore.Fulfillment.Handled
import WaslaCore.Fulfillment.Reapplied
import WaslaCore.Http.Query
import WaslaCore.Http.Reads
import WaslaCore.Http.ReadsConfined
import WaslaCore.Http.ReadsRevealing
import WaslaCore.Ages
import WaslaCore.Data.Aggregates
import WaslaCore.Data.Decimals
import WaslaCore.Data.Delimited
import WaslaCore.Data.Stringify
import WaslaCore.Fulfillment.StaleHolds
import WaslaCore.Http.CanonicalText
import WaslaCore.Reputation.Standing
import WaslaCore.Http.PgRetried
import WaslaCore.Identity.SessionConduct
import WaslaCore.Identity.Vouched
import WaslaCore.Persistence.Frozen
