import Fulfilment.Http.Target
import Fulfilment.Json.Record

/-!
# Requests and responses

Names of headers are compared without regard to case.
-/

namespace Fulfilment

namespace Http

open Json

structure Request where
  method : String
  target : Target
  /-- Headers by their names in lower case. -/
  headers : List (String × Bytes)
  body : Bytes

structure Response where
  status : Nat
  headers : List (String × String)
  body : Bytes

inductive RequestError
  | method
  | target (error : TargetError)
  | headerName
  | headerValue
  deriving DecidableEq, Repr

namespace RequestError

def message : RequestError → String
  | method => "invalid HTTP method"
  | target e => e.message
  | headerName => "invalid HTTP header name"
  | headerValue => "failed to parse header value"

end RequestError

/-- What names of methods and headers are made of. -/
def isToken (c : Char) : Bool := c.isAlphanum || "!#$%&'*+-.^_`|~".toList.contains c

def lowerChar (c : Char) : Char := if 'A' ≤ c ∧ c ≤ 'Z' then Char.ofNat (c.toNat + 32) else c

/-- The name of a header in lower case, if it is one. -/
def headerName? (s : String) : Option String :=
  if s.toList ≠ [] ∧ s.toList.all isToken ∧ s.length ≤ 65535 then
    some (String.ofList (s.toList.map lowerChar))
  else none

/-- What may stand in the value of a header: no control but the tab. -/
def isValueByte (b : UInt8) : Bool := (0x20 ≤ b && b != 0x7F) || b == 9

/-- The value of a header, if it is one. -/
def headerValue? (bs : Bytes) : Option Bytes := if bs.all isValueByte then some bs else none

namespace Request

def makeHeader (h : String × String) : Except RequestError (String × Bytes) :=
  match headerName? h.1 with
  | none => .error .headerName
  | some name =>
    match headerValue? (Utf8.ofString h.2) with
    | none => .error .headerValue
    | some value => .ok (name, value)

/-- The request of a method, an address, headers and a body, or what is wrong with the first of them that is. -/
def make (method address : String) (headers : List (String × String)) (body : Bytes) :
    Except RequestError Request := do
  if method.toList = [] ∨ !method.toList.all isToken then throw .method
  let target ← (Target.parse (Utf8.ofString address)).mapError .target
  let headers ← headers.mapM makeHeader
  return { method, target, headers, body }

/-- The value of the first header of a name. -/
def header? (r : Request) (name : String) : Option Bytes := r.headers.lookup name

/-- The value of a header that holds only characters of ASCII. -/
def headerText? (r : Request) (name : String) : Option (List Char) :=
  match r.header? name with
  | some v =>
    if v.all fun b => (0x20 ≤ b && b ≤ 0x7E) || b == 9 then
      some (v.map fun b => Char.ofNat b.toNat)
    else none
  | none => none

end Request

namespace Response

/-- A response whose body is a document. -/
def json (status : Nat) (body : List Char) : Response :=
  ⟨status, [("content-type", "application/json")], Utf8.encode body⟩

def record {α : Type} [Record α] (status : Nat) (a : α) : Response := json status (Record.print a)

/-- A response that tells an error. -/
def error (status : Nat) (message : String) : Response :=
  json status (printMembers [("error", printText message)])

def text (status : Nat) (body : String) : Response :=
  ⟨status, [("content-type", "text/plain; charset=utf-8")], Utf8.ofString body⟩

def empty (status : Nat) : Response := ⟨status, [], []⟩

def withHeader (r : Response) (name value : String) : Response := { r with headers := r.headers ++ [(name, value)] }

end Response

end Http

end Fulfilment
