import Fulfilment.Event.Lifecycle
import Fulfilment.Http.Exchange
import Fulfilment.Http.Message

/-!
# Subscriptions

Tenants subscribe addresses to events by their names. A delivery is a request to such an address that carries the
event, with headers that the subscription asks for, however many: that a table of headers has a size is left out.

* `Subscription.customHeaders`: the members of an object that are headers. One that is none never affects another.
* `Subscription.delivery`: the request for an event.
-/

namespace Fulfilment

open Json

structure Subscription where
  id : Uuid
  tenantId : String
  callbackUrl : String
  /-- The names of the events. -/
  events : List String
  headers : Value
  isActive : Bool

namespace Subscription

/-- The header that a member of an object is, if it is one. -/
def header? (m : String × Value) : Option (String × Bytes) := do
  let text ← m.2.text?
  let name ← Http.headerName? m.1
  let value ← Http.headerValue? (Utf8.ofString text)
  return (name, value)

/-- Headers by their names; those of one name keep their order. -/
def sortHeaders (headers : List (String × Bytes)) : List (String × Bytes) :=
  headers.mergeSort fun a b => decide (a.1 ≤ b.1)

/-- The headers that a value holds. -/
def customHeaders : Value → List (String × Bytes)
  | .object members => sortHeaders (members.filterMap header?)
  | _ => []

/-- The headers of a delivery, unless the subscription has others of their names. -/
def usualHeaders : List (String × Bytes) :=
  [("accept", Utf8.ofString "*/*"), ("content-type", Utf8.ofString "application/json")]

/-- Whether the subscription is for the event `name` of the tenant. -/
def wants (s : Subscription) (tenantId name : String) : Bool :=
  s.isActive && s.tenantId == tenantId && s.events.any (· == name)

def allHeaders (s : Subscription) : List (String × Bytes) :=
  let custom := customHeaders s.headers
  sortHeaders (custom ++ usualHeaders.filter fun h => !custom.any (·.1 == h.1))

/-- What is sent to a subscriber: the name of the event and its data. -/
def body (name : String) (data : Value) : Bytes :=
  Utf8.encode (printMembers [("event", printText name), ("data", data.print)])

/-- The request that delivers an event to the address `url`. -/
def delivery (s : Subscription) (url : Url) (name : String) (data : Value) : Http.Outgoing where
  method := "POST"
  url := url
  headers := s.allHeaders
  body := body name data

end Subscription

end Fulfilment
