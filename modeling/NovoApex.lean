import NovoApex.Lib.Table
import NovoApex.Lib.TableSum
import NovoApex.Lib.Program
import NovoApex.Lib.Redis
import NovoApex.Lib.Guarded
import NovoApex.Lib.Nested
import NovoApex.Lib.Pool
import NovoApex.Lib.Crew
import NovoApex.Lib.Vouches
import NovoApex.Lib.Window
import NovoApex.Lib.TaskQueue
import NovoApex.Lib.Decimal
import NovoApex.Lib.Json
import NovoApex.Money
import NovoApex.Integrations.Paystack
import NovoApex.Db.Schema
import NovoApex.Domain.State
import NovoApex.Domain.Safety
import NovoApex.Events.Events
import NovoApex.Events.Dispatcher
import NovoApex.Events.AtLeastOnce
import NovoApex.Workers.CheckoutTx
import NovoApex.Workers.OrderStatements
import NovoApex.Db.OpsWrites
import NovoApex.Db.Store
import NovoApex.Workers.Checkout
import NovoApex.Db.Turns
import NovoApex.Workers.PaymentEvents
import NovoApex.Workers.Lifecycle
import NovoApex.Handlers.Vendor
import NovoApex.Workers.Orchestrator
import NovoApex.Workers.CheckoutSpec
import NovoApex.Db.Effects
import NovoApex.Turns.Takeover
import NovoApex.Turns.Intents
import NovoApex.Turns.ProductIds
import NovoApex.Orchestrator.Catalog
import NovoApex.Orchestrator.Amounts
import NovoApex.Db.Payouts
import NovoApex.Db.Outbound
import NovoApex.Outbound.Deliver
import NovoApex.Workers.Crons
import NovoApex.Outbound.Outline
import NovoApex.Outbound.Sessions
import NovoApex.Outbound.Verdicts
import NovoApex.Outbound.AtMostOnce
import NovoApex.Outbound.Ordering
import NovoApex.Outbound.Recovery
import NovoApex.Db.FollowUps
import NovoApex.Workers.FollowUp
import NovoApex.FollowUps.Reminders
import NovoApex.FollowUps.Schedule
import NovoApex.FollowUps.Expiry
import NovoApex.Workers.Restock
import NovoApex.Workers.ProfileStats
import NovoApex.Customers.Totals
import NovoApex.Pipeline
import NovoApex.Orders.OneOrder
import NovoApex.Orders.Restocks
import NovoApex.Orders.Stock
import NovoApex.Orders.OneCheckout
import NovoApex.Orders.Cancellation
import NovoApex.Orders.Placement
import NovoApex.Orders.Ledger
import NovoApex.Payments.Reconciliation
import NovoApex.Payments.Settlement
import NovoApex.Payments.Recording
import NovoApex.Payments.View
import NovoApex.Handlers.WebhooksPayments
import NovoApex.Handlers.PayoutsWrite
import NovoApex.Handlers.Reply
import NovoApex.Auth.Otp
import NovoApex.Handlers.Auth
import NovoApex.Auth.Isolation
import NovoApex.Auth.Attempts
import NovoApex.Auth.Login
import NovoApex.Payments.Delivery
import NovoApex.Payments.Retry
import NovoApex.Payouts.Balance
import NovoApex.Payouts.Books
import NovoApex.Payouts.Requests
import NovoApex.Payouts.Transfers
import NovoApex.Handlers.Validation
import NovoApex.Db.Locations
import NovoApex.Handlers.LocationsWrite
import NovoApex.Locations.Fulfillment
import NovoApex.Lib.Transactions
import NovoApex.Db.Retention
import NovoApex.Workers.Retention
import NovoApex.Customers.Reengagement
import NovoApex.Db.NewArrivals
import NovoApex.Workers.NewArrivals
import NovoApex.Customers.Digests
import NovoApex.Migrations.Files
import NovoApex.Migrations.Migrate
import NovoApex.Migrations.Prefix
import NovoApex.Conversations.Transitions
import NovoApex.Orchestrator.Llm
import NovoApex.Orders.ModelOutput
import NovoApex.Lib.DecimalText
import NovoApex.Payments.Amounts
import NovoApex.Payments.Initiation
import NovoApex.Turns.Boundary
import NovoApex.Turns.CatalogItems
import NovoApex.Turns.History
import NovoApex.Payments.PhoneMatch
import NovoApex.Lib.JsonSchema
import NovoApex.Orchestrator.Schema
import NovoApex.Orchestrator.Retrieval
import NovoApex.Orchestrator.Context
import NovoApex.Turns.ContextItems
import NovoApex.Outbound.OneReply
import NovoApex.Outbound.OwnReply
import NovoApex.Outbound.Replies
import NovoApex.Queue.Backoff
import NovoApex.Handlers.Pagination
import NovoApex.Lib.Attempts
import NovoApex.Events.Progress
import NovoApex.Lib.Distinct
import NovoApex.Workers.ProfileBuilder
import NovoApex.Customers.Preferences
import NovoApex.Handlers.Inbox
import NovoApex.Lib.Sql
import NovoApex.Handlers.ProductsWrite
import NovoApex.Handlers.PartialUpdate
import NovoApex.Handlers.StoredProducts
import NovoApex.Lib.Regex
import NovoApex.Handlers.Email
import NovoApex.Lib.Limited
import NovoApex.Httpx.Throttle
import NovoApex.Httpx.Throttling
import NovoApex.Lib.Backed
import NovoApex.Lib.NumberText
import NovoApex.Queue.RateLimit
import NovoApex.Queue.RateWindows
import NovoApex.Handlers.Images
import NovoApex.Handlers.ImagePositions
import NovoApex.Payments.Invoices
import NovoApex.Workers.Webhook
import NovoApex.Handlers.WebhooksWhatsapp
import NovoApex.Ingest.Claims
import NovoApex.Workers.Debounce
import NovoApex.Turns.Debounce
import NovoApex.Lib.Replacing
import NovoApex.Turns.PriceSync
import NovoApex.Handlers.ImageRequests
import NovoApex.Handlers.DenseImages
import NovoApex.Lib.Answered
import NovoApex.Lib.Shares
import NovoApex.Vendors.Requests
import NovoApex.Vendors.OwnImages
import NovoApex.Vendors.Isolation
import NovoApex.Lib.Owned
import NovoApex.Turns.Belongings
import NovoApex.Lib.Aggregates
import NovoApex.Lib.Base64
import NovoApex.Lib.Calendar
import NovoApex.Handlers.Revenue
import NovoApex.Payments.Reports
import NovoApex.Lib.Refresh
import NovoApex.Workers.Embedding
import NovoApex.Embeddings.Coherence
