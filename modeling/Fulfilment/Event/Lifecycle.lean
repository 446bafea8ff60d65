import Fulfilment.Event.Basic

/-!
# Events in the life of an order

An event is decoded by the name of its topic. Every event names its tenant; those of known names have fields of their
own, all others are kept as they are, so that new kinds of events can be passed on.

* `LifecycleEvent.decode`: the event, or why there is none.
* `LifecycleEvent.data`: the event as a free-form value.
-/

namespace Fulfilment

open Json

inductive LifecycleEvent
  | created (event : OrderCreated)
  | updated (event : OrderUpdated)
  | other (name : String) (payload : Value)

namespace LifecycleEvent

inductive DecodeError
  /-- The text is no document. -/
  | malformed (fault : Fault)
  /-- No tenant is named. -/
  | missingTenant
  /-- The fields are not those of the event. -/
  | schema (event : String) (mismatch : Mismatch)

namespace DecodeError

def message : DecodeError → String
  | malformed fault => "payload is not valid JSON: " ++ fault.message
  | missingTenant => "payload carries no tenant_id"
  | schema event mismatch => s!"invalid {event} payload: {mismatch.message}"

end DecodeError

/-- The tenant that a payload names. -/
def tenantOf? (payload : Value) : Option String := (payload.get? "tenant_id").bind Value.text?

/-- The event that the value `payload` is under the name `name`. -/
def ofValue (name : String) (payload : Value) : Except DecodeError LifecycleEvent :=
  if (tenantOf? payload).isNone then .error .missingTenant
  else if name = Topic.orderCreated then ((Record.ofValue payload).mapError (.schema name)).map created
  else if name = Topic.orderUpdated then ((Record.ofValue payload).mapError (.schema name)).map updated
  else .ok (other name payload)

def decode (name : String) (payload : Bytes) : Except DecodeError LifecycleEvent :=
  match Value.parse payload with
  | .error fault => .error (.malformed fault)
  | .ok v => ofValue name v

def name : LifecycleEvent → String
  | created _ => Topic.orderCreated
  | updated _ => Topic.orderUpdated
  | other name _ => name

def tenantId : LifecycleEvent → String
  | created e => e.tenantId
  | updated e => e.tenantId
  | other _ payload => (tenantOf? payload).getD ""

/-- The event as subscribers see it. -/
def data : LifecycleEvent → Value
  | created e => Record.toValue e
  | updated e => Record.toValue e
  | other _ payload => payload

end LifecycleEvent

end Fulfilment
