import Fulfilment.Blob.Basic
import Fulfilment.Blob.Remote
import Fulfilment.Bulk.Columns
import Fulfilment.Bulk.Worker
import Fulfilment.Bus.Basic
import Fulfilment.Bus.Broker
import Fulfilment.Bus.Consumer
import Fulfilment.Bus.Flow
import Fulfilment.Bus.History
import Fulfilment.Bus.Message
import Fulfilment.Bus.Offsets
import Fulfilment.Bus.Rehearsal
import Fulfilment.Cli.Options
import Fulfilment.Cli.Services
import Fulfilment.Csv.Reader
import Fulfilment.Csv.Writer
import Fulfilment.Decimal.Shortest
import Fulfilment.Depot.Basic
import Fulfilment.Event.Basic
import Fulfilment.Event.Lifecycle
import Fulfilment.Failure
import Fulfilment.Http.Exchange
import Fulfilment.Http.Form
import Fulfilment.Http.MediaType
import Fulfilment.Http.Message
import Fulfilment.Http.Multipart
import Fulfilment.Http.Router
import Fulfilment.Http.Status
import Fulfilment.Http.Target
import Fulfilment.Inventory.Race
import Fulfilment.Inventory.Remote
import Fulfilment.Inventory.Reservation
import Fulfilment.Inventory.Stock
import Fulfilment.Json.Codec
import Fulfilment.Json.Cursor
import Fulfilment.Json.Fault
import Fulfilment.Json.Number
import Fulfilment.Json.Printer
import Fulfilment.Json.Reader
import Fulfilment.Json.Record
import Fulfilment.Json.Text
import Fulfilment.Json.Value
import Fulfilment.Main
import Fulfilment.Order.Api
import Fulfilment.Order.Basic
import Fulfilment.Order.Filter
import Fulfilment.Order.Finalizer
import Fulfilment.Order.Intake
import Fulfilment.Order.Pipeline
import Fulfilment.Order.Request
import Fulfilment.Order.Status
import Fulfilment.Outage
import Fulfilment.Proofs.Blob.Download
import Fulfilment.Proofs.Bulk.Account
import Fulfilment.Proofs.Bulk.Agreement
import Fulfilment.Proofs.Bulk.Batch
import Fulfilment.Proofs.Bulk.Header
import Fulfilment.Proofs.Bulk.Layout
import Fulfilment.Proofs.Bulk.Refusal
import Fulfilment.Proofs.Bulk.Relaid
import Fulfilment.Proofs.Bulk.Rows
import Fulfilment.Proofs.Bulk.Sidecar
import Fulfilment.Proofs.Bulk.SidecarKey
import Fulfilment.Proofs.Bulk.Verdict
import Fulfilment.Proofs.Bus.Consumer
import Fulfilment.Proofs.Bus.HandingOut
import Fulfilment.Proofs.Bus.History
import Fulfilment.Proofs.Bus.InOrder
import Fulfilment.Proofs.Bus.Isolation
import Fulfilment.Proofs.Bus.Lane
import Fulfilment.Proofs.Bus.LowWater
import Fulfilment.Proofs.Bus.NestedRetry
import Fulfilment.Proofs.Bus.Restart
import Fulfilment.Proofs.Bus.Retry
import Fulfilment.Proofs.Csv.RoundTrip
import Fulfilment.Proofs.Depot.Alike
import Fulfilment.Proofs.Depot.Aside
import Fulfilment.Proofs.Depot.Files
import Fulfilment.Proofs.Depot.Ledger
import Fulfilment.Proofs.Depot.Orders
import Fulfilment.Proofs.Depot.Replay
import Fulfilment.Proofs.Depot.Stock
import Fulfilment.Proofs.Event.Agreement
import Fulfilment.Proofs.Event.Decoding
import Fulfilment.Proofs.Event.Delivery
import Fulfilment.Proofs.Event.RoundTrip
import Fulfilment.Proofs.Http.Body
import Fulfilment.Proofs.Http.Form
import Fulfilment.Proofs.Http.Header
import Fulfilment.Proofs.Http.Multipart
import Fulfilment.Proofs.Http.Router
import Fulfilment.Proofs.Inventory.Article
import Fulfilment.Proofs.Inventory.Lookup
import Fulfilment.Proofs.Inventory.Race
import Fulfilment.Proofs.Inventory.Remote
import Fulfilment.Proofs.Inventory.Requests
import Fulfilment.Proofs.Inventory.Reservation
import Fulfilment.Proofs.Json.Agreement
import Fulfilment.Proofs.Json.Codec
import Fulfilment.Proofs.Json.Front
import Fulfilment.Proofs.Json.Grammar.Members
import Fulfilment.Proofs.Json.Grammar.Number
import Fulfilment.Proofs.Json.Grammar.Text
import Fulfilment.Proofs.Json.Grammar.Value
import Fulfilment.Proofs.Json.Kept
import Fulfilment.Proofs.Json.Number
import Fulfilment.Proofs.Json.Reads
import Fulfilment.Proofs.Json.Record
import Fulfilment.Proofs.Json.RecordValue
import Fulfilment.Proofs.Json.Skip
import Fulfilment.Proofs.Json.Text
import Fulfilment.Proofs.Json.Value
import Fulfilment.Proofs.Order.Acceptance
import Fulfilment.Proofs.Order.Admission
import Fulfilment.Proofs.Order.Announcement
import Fulfilment.Proofs.Order.Creation
import Fulfilment.Proofs.Order.Figures
import Fulfilment.Proofs.Order.Finalization
import Fulfilment.Proofs.Order.Footprint
import Fulfilment.Proofs.Order.History
import Fulfilment.Proofs.Order.Intake
import Fulfilment.Proofs.Order.Lifecycle
import Fulfilment.Proofs.Order.Listing
import Fulfilment.Proofs.Order.Pipeline
import Fulfilment.Proofs.Order.Resubmission
import Fulfilment.Proofs.Order.Shortage
import Fulfilment.Proofs.Order.Stages
import Fulfilment.Proofs.Order.StockAccount
import Fulfilment.Proofs.Order.Submission
import Fulfilment.Proofs.Order.Upload
import Fulfilment.Proofs.Program
import Fulfilment.Proofs.Text.Blank
import Fulfilment.Proofs.Text.Digits
import Fulfilment.Proofs.Text.Numeral
import Fulfilment.Proofs.Text.Utf8
import Fulfilment.Proofs.Time.Newest
import Fulfilment.Proofs.Time.Timestamp
import Fulfilment.Proofs.Url.Query
import Fulfilment.Proofs.Url.Target
import Fulfilment.Proofs.Webhook.Attempts
import Fulfilment.Proofs.Webhook.DeadLetters
import Fulfilment.Proofs.Webhook.FanOut
import Fulfilment.Proofs.Webhook.Headers
import Fulfilment.Proofs.Webhook.Logs
import Fulfilment.Proofs.Webhook.Visit
import Fulfilment.Text.Blank
import Fulfilment.Text.Numeral
import Fulfilment.Text.Parts
import Fulfilment.Text.Printable
import Fulfilment.Text.Quoted
import Fulfilment.Text.Utf8
import Fulfilment.Time.Instant
import Fulfilment.Time.Newest
import Fulfilment.Time.Timestamp
import Fulfilment.Url.Basic
import Fulfilment.Url.HostName
import Fulfilment.Url.Punycode
import Fulfilment.Uuid
import Fulfilment.Webhook.Api
import Fulfilment.Webhook.Dispatch
import Fulfilment.Webhook.Relay
import Fulfilment.Webhook.Sink
import Fulfilment.Webhook.Subscription
