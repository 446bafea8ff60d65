import Fulfilment.Http.Router
import Fulfilment.Webhook.Dispatch
import Fulfilment.Webhook.Sink

/-!
# The webhook service

The handlers with their attempts, and the route on which failures are listed.

* `WebhookService.respond`: the answer to a request.
-/

namespace Fulfilment

open Http Json

structure WebhookSettings where
  /-- Where dead letters are published. -/
  failedTopic : String
  /-- How often a message is attempted. -/
  retryAttempts : Nat

/-- What a listing of failures may ask for. -/
structure LogQuery where
  limit : Option Int64

instance : Record LogQuery where
  title := "LogQuery"
  fields := [.optional "limit" .int64]
  ofRow := fun (limit, ()) => { limit }
  toRow q := (q.limit, ())

namespace LogQuery

def defaultLimit : Int := 100

def maxLimit : Int := 1000

/-- How many failures are listed at most: one at least, and not more than there may be. -/
def count (q : LogQuery) : Int :=
  max 1 (min ((q.limit.map Int64.toInt).getD defaultLimit) maxLimit)

end LogQuery

namespace WebhookService

def retriedDispatcher (s : WebhookSettings) : Handler Relaying :=
  Handler.retried s.retryAttempts (dispatcher s.failedTopic)

def retriedSink (s : WebhookSettings) : Handler Relaying := Handler.retried s.retryAttempts failureSink

/-- Hands dead letters to the sink. -/
def sinkAll (s : WebhookSettings) : List Message → Relaying (List (Except Failure Unit))
  | [] => return []
  | message :: rest => do
    if message.topic = s.failedTopic then
      let result ← retriedSink s message
      return result :: (← sinkAll s rest)
    else sinkAll s rest

/-- Hands all published dead letters to the sink. -/
def pump (s : WebhookSettings) : Relaying (List (Except Failure Unit)) := do sinkAll s (← Relay.takePublished)

def getLogs (r : Request) : Relaying Response := do
  match readQuery LogQuery r with
  | .error message => return .error 400 message
  | .ok query =>
    match ← Relay.recent query.count with
    | .error _ => return .error 500 "Failed to load webhook logs"
    | .ok logs => return .json 200 (printMembers [("logs", printList (logs.map Record.print))])

def routes : List (Route Relaying) := [⟨"/webhook-logs", [("GET", getLogs)]⟩, healthRoute]

def respond (r : Request) : Relaying Response := Router.respond routes r

end WebhookService

end Fulfilment
