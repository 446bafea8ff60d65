import Fulfilment.Http.Form
import Fulfilment.Http.MediaType

/-!
# Routes

Which handler answers a request, by its path and method, and how handlers read their input. Every response may be read
by scripts of any origin, and a request for options is answered with what is allowed.

* `Router.respond`: the answer to a request.
* `readBody`, `readQuery`: a record from the body, or from the query.
-/

namespace Fulfilment

namespace Http

open Json

/-! ### Input -/

/-- The size of the largest document that a body may hold. -/
def maxDocumentBytes : Nat := 2097152

/-- The part of a document in front of the message about it. -/
def partLabel : Json.Part → String
  | .whole => ""
  | .member name => name ++ ": "
  | .item index => s!"[{index}]: "

def faultMessage (f : Fault) : String :=
  (if f.cause.isMismatch then "Failed to deserialize the JSON body into the target type: "
    else "Failed to parse the request body as JSON: ") ++ partLabel f.part ++ f.message

/-- The record in the body, or the message that it is none. -/
def readBody (α : Type) [Record α] (r : Request) : Except String α :=
  if !(r.mediaType?.any MediaType.isJson) then .error "Expected request with `Content-Type: application/json`"
  else if maxDocumentBytes < r.body.length then .error "Failed to buffer the request body: length limit exceeded"
  else (Record.parse r.body).mapError faultMessage

/-- The record that the query fills in, or the message that there is none. -/
def readQuery (α : Type) [Record α] (r : Request) : Except String α :=
  (Record.ofForm (Form.decode (r.target.query.getD []))).mapError fun m =>
    "Failed to deserialize query string: " ++ m.message

/-! ### Routes -/

structure Route (m : Type → Type) where
  path : String
  handlers : List (String × (Request → m Response))

namespace Route

variable {m : Type → Type}

/-- The methods of a route. What can be got can also be asked for its head. -/
def allow (r : Route m) : String :=
  ",".intercalate (r.handlers.flatMap fun h => if h.1 = "GET" then ["GET", "HEAD"] else [h.1])

end Route

namespace Router

variable {m : Type → Type} [Monad m]

def openToAll (r : Response) : Response := r.withHeader "access-control-allow-origin" "*"

def route? (routes : List (Route m)) (r : Request) : Option (Route m) :=
  routes.find? fun route => Utf8.ofString route.path == r.target.path

/-- The answer to a request for options. -/
def options (route : Option (Route m)) : Response :=
  let r := ((Response.empty 200).withHeader "access-control-allow-methods" "*").withHeader
    "access-control-allow-headers" "*"
  openToAll (match route with
    | some route => r.withHeader "allow" route.allow
    | none => r)

/-- The answer of a route. -/
def answer (route : Route m) (r : Request) : m Response :=
  match route.handlers.lookup r.method with
  | some handler => handler r
  | none =>
    match if r.method = "HEAD" then route.handlers.lookup "GET" else none with
    | some handler => do return { (← handler r) with body := [] }
    | none => return (Response.empty 405).withHeader "allow" route.allow

def respond (routes : List (Route m)) (r : Request) : m Response :=
  if r.method = "OPTIONS" then return options (route? routes r)
  else
    match route? routes r with
    | none => return openToAll (.empty 404)
    | some route => do return openToAll (← answer route r)

end Router

/-- The route on which a service says that it is up. -/
def healthRoute {m : Type → Type} [Monad m] : Route m :=
  ⟨"/health", [("GET", fun _ => pure (.text 200 "OK"))]⟩

end Http

end Fulfilment
