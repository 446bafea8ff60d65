import Fulfilment.Http.Status
import Fulfilment.Url.Basic

/-!
# Exchanges with other services

A request goes out to an address and is answered, or not. What is answered with any status but those of refusals has
succeeded, also where the connection breaks off within the body of the answer.

* `Http.address?`: the addresses to which requests can be made.
* `Http.exchange`: one request and the body of its answer.
-/

namespace Fulfilment

namespace Http

/-- A request to another service. -/
structure Outgoing where
  method : String
  url : Url
  /-- Headers by their names in lower case. -/
  headers : List (String × Bytes)
  body : Bytes
  deriving DecidableEq

/-- What becomes of a request. -/
inductive Reply
  | answered (status : Nat) (body : Bytes)
  /-- The connection broke off within the body of the answer. -/
  | brokenOff (status : Nat)
  /-- The connection was closed without an answer. -/
  | dropped
  /-- There was no answer in time. -/
  | timedOut
  /-- There was no connection, so that nothing was sent. -/
  | unreachable
  deriving DecidableEq, Repr

namespace Reply

/-- Whether the request was sent. -/
def reached : Reply → Bool
  | unreachable => false
  | answered .. | brokenOff _ | dropped | timedOut => true

/-- The status of the answer, and its body if all of it came. -/
def answer? : Reply → Option (Nat × Option Bytes)
  | answered status body => some (status, some body)
  | brokenOff status => some (status, none)
  | dropped | timedOut | unreachable => none

end Reply

/-- How other services reply to a request, after those that were made before. -/
abbrev Servers := (before : List Outgoing) → Outgoing → Reply

/-- What takes requests to other services. -/
abbrev Transport (m : Type → Type) := Outgoing → m Reply

inductive ExchangeError
  /-- Where the request should go to is no address. -/
  | noAddress
  /-- Requests cannot be made to the address. -/
  | unusable (url : Url)
  /-- The request was not answered. -/
  | unanswered (url : Url)
  | refused (status : Nat) (url : Url)
  deriving DecidableEq, Repr

namespace ExchangeError

def message : ExchangeError → String
  | noAddress => "builder error"
  | unusable url => s!"builder error for url ({url.render})"
  | unanswered url => s!"error sending request for url ({url.render})"
  | refused status url =>
    let side := if isServerError status then "server" else "client"
    s!"HTTP status {side} error ({status} {reasonPhrase status}) for url ({url.render})"

end ExchangeError

/-- The address in a text, if it names a host. -/
def address? (text : String) : Except ExchangeError Url :=
  match Url.parse? text with
  | none => .error .noAddress
  | some url => if url.hasHost then .ok url else .error (.unusable url)

/-- The body of a reply that is no refusal. Only who reads it learns that it broke off. -/
def Reply.body? (url : Url) (reply : Reply) : Except ExchangeError (Option Bytes) :=
  match reply.answer? with
  | none => .error (.unanswered url)
  | some (status, body) => if isRefusal status then .error (.refused status url) else .ok body

/-- Makes a request. Nothing goes out unless the address is one of the web. -/
def exchange {m : Type → Type} [Monad m] (send : Transport m) (r : Outgoing) :
    m (Except ExchangeError (Option Bytes)) :=
  if r.url.isHttp then do return (← send r).body? r.url else return .error (.unusable r.url)

/-- Requests with the replies to them, in the order in which they were made. -/
structure Wire where
  servers : Servers
  exchanges : List (Outgoing × Reply)

namespace Wire

def requests (w : Wire) : List Outgoing := w.exchanges.map (·.1)

/-- The requests that were sent. -/
def sent (w : Wire) : List Outgoing := (w.exchanges.filter (·.2.reached)).map (·.1)

def send : Transport (StateM Wire) := fun r w =>
  let reply := w.servers w.requests r
  (reply, { w with exchanges := w.exchanges ++ [(r, reply)] })

end Wire

end Http

end Fulfilment
