import Fulfilment.Bus.Basic
import Fulfilment.Time.Newest
import Fulfilment.Webhook.Subscription

/-!
# The relay

What events are passed on with: the subscriptions, the addresses of subscribers, the bus for deliveries that failed,
and the record of those failures, with every call that was made. A `Relaying` is a program over the relay.

* `Relay.Call`: one call with its outcome, in the order in which they were made.
* `Relay.attempt`: one delivery.
-/

namespace Fulfilment

open Json

/-- A delivery that failed, as it is kept. -/
structure FailureRecord where
  id : Uuid
  subscriptionId : Uuid
  event : String
  callbackUrl : String
  error : String
  payload : Value
  recordedAt : Instant

instance : Record FailureRecord where
  title := "WebhookFailureRecord"
  fields :=
    [.required "id" .uuid, .required "subscription_id" .uuid, .required "event" .text,
      .required "callback_url" .text, .required "error" .text, .required "payload" .free,
      .required "recorded_at" .instant]
  ofRow := fun (id, subscriptionId, event, callbackUrl, error, payload, recordedAt, ()) =>
    { id, subscriptionId, event, callbackUrl, error, payload, recordedAt }
  toRow r := (r.id, r.subscriptionId, r.event, r.callbackUrl, r.error, r.payload, r.recordedAt, ())

/-- The record that a failure becomes. -/
def DeadLetter.recorded (d : DeadLetter) (id : Uuid) (time : Instant) : FailureRecord where
  id := id
  subscriptionId := d.subscriptionId
  event := d.event
  callbackUrl := d.callbackUrl
  error := d.error
  payload := d.payload
  recordedAt := time

inductive Relay.Call
  /-- The subscriptions found, if the call succeeded. -/
  | activeFor (tenantId event : String) (found : Option (List Uuid))
  /-- A delivery: the requests that were sent, and the error if it failed. -/
  | attempt (subscription : Uuid) (sent : List Http.Outgoing) (error : Option Http.ExchangeError)
  | publish (topic key : String) (payload : Bytes) (succeeded : Bool)
  | record (letter : DeadLetter) (id : Option Uuid)
  | recent (limit : Int) (succeeded : Bool)

structure Relay where
  /-- Identifier and time of the failure recorded as the `n`th. -/
  supply : Nat → Uuid × Instant
  subscriptions : List Subscription
  lookups : Outage
  wire : Http.Wire
  failures : List FailureRecord
  /-- How many failures have been recorded since the relay was opened. -/
  recorded : Nat
  records : Outage
  listing : Outage
  bus : Bus
  calls : List Relay.Call

abbrev Relaying := StateM Relay

namespace Relay

/-- A relay without subscriptions. -/
def opened (supply : Nat → Uuid × Instant) (servers : Http.Servers) : Relay where
  supply := supply
  subscriptions := []
  lookups := .none
  wire := ⟨servers, []⟩
  failures := []
  recorded := 0
  records := .none
  listing := .none
  bus := .empty
  calls := []

def logged (r : Relay) (c : Call) : Relay := { r with calls := r.calls ++ [c] }

/-- The subscriptions for an event of a tenant. -/
def activeFor (tenantId event : String) : Relaying (Except Failure (List Subscription)) := fun r =>
  let r' := { r with lookups := r.lookups.worn }
  if r.lookups.strikes then
    (.error (.ofMessage "subscription store unreachable"), r'.logged (.activeFor tenantId event none))
  else
    let found := r.subscriptions.filter (·.wants tenantId event)
    (.ok found, r'.logged (.activeFor tenantId event (some (found.map (·.id)))))

/-- Makes the request that delivers an event to a subscriber. -/
def post (s : Subscription) (event : String) (data : Value) :
    StateM Http.Wire (Except Http.ExchangeError (Option Bytes)) :=
  match Http.address? s.callbackUrl with
  | .error e => return .error e
  | .ok url => Http.exchange Http.Wire.send (s.delivery url event data)

/-- Delivers an event to a subscriber, and tells the error if that fails. -/
def attempt (s : Subscription) (event : String) (data : Value) : Relaying (Option Http.ExchangeError) := fun r =>
  let (result, wire) := (post s event data).run r.wire
  let error := match result with
    | .error e => some e
    | .ok _ => none
  (error, { r with wire }.logged (.attempt s.id (wire.sent.drop r.wire.sent.length) error))

def publish (topic key : String) (payload : Bytes) : Relaying (Except Failure Unit) := fun r =>
  let sent := r.bus.publish ⟨topic, some key, payload⟩
  (sent.1, { r with bus := sent.2 }.logged (.publish topic key payload sent.1.isOk))

/-- Takes off all messages published so far. -/
def takePublished : Relaying (List Message) := fun r => (r.bus.published, { r with bus := r.bus.emptied })

def record (d : DeadLetter) : Relaying (Except Failure FailureRecord) := fun r =>
  let r' := { r with records := r.records.worn }
  if r.records.strikes then (.error (.ofMessage "failure store unreachable"), r'.logged (.record d none))
  else
    let n := r.recorded + 1
    let kept := d.recorded (r.supply n).1 (r.supply n).2
    (.ok kept, { r' with failures := r.failures ++ [kept], recorded := n }.logged (.record d (some kept.id)))

/-- The newest failures, at most `limit` of them. -/
def recent (limit : Int) : Relaying (Except Failure (List FailureRecord)) := fun r =>
  if r.listing.strikes then (.error (.ofMessage "failure store unreachable"), r.logged (.recent limit false))
  else (.ok ((newestFirst FailureRecord.recordedAt r.failures).take limit.toNat), r.logged (.recent limit true))

end Relay

end Fulfilment
