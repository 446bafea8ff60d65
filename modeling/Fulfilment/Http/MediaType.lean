import Fulfilment.Http.Message

/-!
# Media types

The kind of a body, such as `multipart/form-data; boundary=X`.

* `MediaType.parse?`: the type with its parameters. Names are in lower case, values are as they stand.
-/

namespace Fulfilment

namespace Http

structure MediaType where
  kind : List Char
  subtype : List Char
  parameters : List (List Char × List Char)
  deriving DecidableEq, Repr

namespace MediaType

def isQuotedChar (c : Char) : Bool := 32 ≤ c.toNat && c != Char.ofNat 127

/-- A value between quotes, and what follows it, without the semicolon of the next parameter. -/
def quotedValue (acc : List Char) : List Char → Option (List Char × List Char)
  | [] => none
  | c :: rest =>
    if c = '"' ∧ acc ≠ [] then
      match rest.dropWhile (· == ' ') with
      | [] => some (acc.reverse, [])
      | ';' :: more => some (acc.reverse, more)
      | _ => none
    else if isQuotedChar c then quotedValue (c :: acc) rest
    else none

/-- A value without quotes, and what follows its semicolon. -/
def plainValue (cs : List Char) : Option (List Char × List Char) :=
  let value := cs.takeWhile isToken
  match cs.drop value.length with
  | [] => some (value, [])
  | ';' :: more => if value = [] then none else some (value, more)
  | _ => none

/-- One parameter, and what follows it. -/
def parameter (cs : List Char) : Option ((List Char × List Char) × List Char) :=
  let cs := cs.dropWhile (· == ' ')
  let name := cs.takeWhile isToken
  match cs.drop name.length with
  | '=' :: rest =>
    if name = [] then none
    else
      let value := match rest with
        | '"' :: quoted => quotedValue [] quoted
        | _ => plainValue rest
      value.map fun v => ((name.map lowerChar, v.1), v.2)
  | _ => none

/-- The parameters, each of which takes at least one character; `fuel` is no less than how many those are. -/
def readParameters : (fuel : Nat) → List Char → Option (List (List Char × List Char))
  | _, [] => some []
  | 0, _ :: _ => none
  | fuel + 1, cs =>
    match parameter cs with
    | none => none
    | some (p, rest) => (readParameters fuel rest).map (p :: ·)

def parse? (cs : List Char) : Option MediaType :=
  let kind := cs.takeWhile isToken
  match cs.drop kind.length with
  | '/' :: rest =>
    let subtype := rest.takeWhile isToken
    let made := MediaType.mk (kind.map lowerChar) (subtype.map lowerChar)
    if kind = [] then none
    else
      match rest.drop subtype.length with
      | [] => some (made [])
      | ';' :: more => if subtype = [] then none else (readParameters more.length more).map made
      | _ => none
  | _ => none

/-- Whether a body of this type is a document: `json`, or ending in `+json`. -/
def isJson (t : MediaType) : Bool :=
  t.kind == "application".toList && (t.subtype == "json".toList || "+json".toList.isSuffixOf t.subtype)

/-- What separates the parts of a form. -/
def boundary? (t : MediaType) : Option (List Char) :=
  if t.kind = "multipart".toList ∧ t.subtype = "form-data".toList then t.parameters.lookup "boundary".toList else none

end MediaType

namespace Request

/-- The type of the body. -/
def mediaType? (r : Request) : Option MediaType := (r.headerText? "content-type").bind MediaType.parse?

end Request

end Http

end Fulfilment
