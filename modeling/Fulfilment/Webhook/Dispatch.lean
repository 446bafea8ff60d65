import Fulfilment.Text.Blank
import Fulfilment.Webhook.Relay

/-!
# Passing events on

An event is delivered to every subscriber of it, one after another. A delivery that fails never stops the others: it
is published as a dead letter, and whether that succeeds changes nothing either.

* `dispatch`: delivers one event. It fails only if the subscriptions cannot be looked up.
* `dispatcher`: the handler of events. What is no event is dropped.
-/

namespace Fulfilment

open Json

structure DispatchSummary where
  matched : Nat
  delivered : Nat
  failed : Nat
  deriving DecidableEq, Repr

namespace DispatchSummary

def nothing : DispatchSummary := ⟨0, 0, 0⟩

end DispatchSummary

/-- The dead letter of a delivery that failed. -/
def Subscription.deadLetter (s : Subscription) (event : String) (data : Value) (e : Http.ExchangeError) :
    DeadLetter where
  subscriptionId := s.id
  event := event
  callbackUrl := s.callbackUrl
  error := e.message
  payload := data

/-- Delivers an event to a subscriber or publishes a dead letter, and tells whether it was delivered. -/
def serve (failedTopic event : String) (data : Value) (s : Subscription) : Relaying Bool := do
  match ← Relay.attempt s event data with
  | none => return true
  | some e =>
    let _ ← Relay.publish failedTopic s.id.render (Record.encode (s.deadLetter event data e))
    return false

/-- Serves subscribers in order, and counts the deliveries. -/
def serveAll (failedTopic event : String) (data : Value) : List Subscription → Relaying Nat
  | [] => return 0
  | s :: rest => do
    let delivered ← serve failedTopic event data s
    return (if delivered then 1 else 0) + (← serveAll failedTopic event data rest)

def dispatch (failedTopic : String) (e : LifecycleEvent) : Relaying (Except Failure DispatchSummary) := do
  if blank e.tenantId then return .ok .nothing
  else
    match ← Relay.activeFor e.tenantId e.name with
    | .error f => return .error f
    | .ok found =>
      let delivered ← serveAll failedTopic e.name e.data found
      return .ok { matched := found.length, delivered, failed := found.length - delivered }

def dispatcher (failedTopic : String) : Handler Relaying := fun message => do
  match LifecycleEvent.decode message.topic message.payload with
  | .error _ => return .ok ()
  | .ok e =>
    match ← dispatch failedTopic e with
    | .error f => return .error f
    | .ok _ => return .ok ()

end Fulfilment
