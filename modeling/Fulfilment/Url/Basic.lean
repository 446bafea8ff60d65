import Fulfilment.Http.Form
import Fulfilment.Url.HostName

/-!
# Addresses

Addresses of resources, read the way browsers read them: blanks around them do not count, the scheme and the host are
in lower case, the usual port is left out, single and double dots in the path are resolved, and what may not stand as
itself is written in hexadecimal. Names and passwords are left out.

* `Url.parse?`: the address in a text, if it is complete.
* `Url.render`: its one written form.
-/

namespace Fulfilment

structure Url where
  scheme : List Char
  /-- The host and the port; some schemes have none. -/
  host : Option (List Char)
  port : Option Nat
  path : List Char
  query : Option (List Char)
  fragment : Option (List Char)
  deriving DecidableEq, Repr

namespace Url

/-! ### Parts -/

def isLetter (c : Char) : Bool := ('a' ≤ c && c ≤ 'z') || ('A' ≤ c && c ≤ 'Z')

def isDigit (c : Char) : Bool := '0' ≤ c && c ≤ '9'

def lower (c : Char) : Char := if 'A' ≤ c ∧ c ≤ 'Z' then Char.ofNat (c.toNat + 32) else c

/-- The port that goes without saying. -/
def usualPort? (scheme : List Char) : Option Nat :=
  if scheme = "http".toList ∨ scheme = "ws".toList then some 80
  else if scheme = "https".toList ∨ scheme = "wss".toList then some 443
  else if scheme = "ftp".toList then some 21
  else none

def isFile (scheme : List Char) : Bool := scheme == "file".toList

/-- The schemes whose addresses have a host and a path. -/
def isSpecial (scheme : List Char) : Bool := (usualPort? scheme).isSome || isFile scheme

def percentChar (c : Char) : List Char :=
  (Utf8.encodeChar c).flatMap fun b => (Form.percent b).map fun d => Char.ofNat d.toNat

/-- The text with controls, characters beyond ASCII, and those in `more` in hexadecimal. -/
def escape (more : List Char) (cs : List Char) : List Char :=
  cs.flatMap fun c => if c.toNat < 0x20 || 0x7E < c.toNat || more.contains c then percentChar c else [c]

def pathMarks : List Char := [' ', '"', '#', '<', '>', '?', Char.ofNat 96, '\x7b', '\x7d']

def queryMarks (special : Bool) : List Char := [' ', '"', '#', '<', '>'] ++ if special then ['\''] else []

def fragmentMarks : List Char := [' ', '"', '<', '>', Char.ofNat 96]

/-! ### Hosts -/

/-- What no host name may hold. -/
def isForbidden (c : Char) : Bool :=
  c.toNat ≤ 0x20 || c.toNat == 0x7F || "#/:<>?@[\\]^|%".toList.contains c

def digitIn? (base : Nat) (c : Char) : Option Nat :=
  let n := if isDigit c then c.toNat - 48 else if 'a' ≤ c ∧ c ≤ 'f' then c.toNat - 87 else 16
  if n < base then some n else none

def numeral? (base : Nat) (cs : List Char) : Option Nat :=
  cs.foldlM (fun n c => (digitIn? base c).map (n * base + ·)) 0

/-- A number in a numerical host: decimal, octal behind a zero, or hexadecimal behind `0x`. -/
def hostNumber? : List Char → Option Nat
  | [] => none
  | '0' :: 'x' :: rest => numeral? 16 rest
  | '0' :: rest => if rest.isEmpty then some 0 else numeral? 8 rest
  | cs => numeral? 10 cs

/-- The labels of a host without the empty one behind a last dot. -/
def labels (host : List Char) : List (List Char) :=
  let ls := partsAt '.' host
  if ls.getLast? = some [] ∧ 1 < ls.length then ls.dropLast else ls

/-- Whether a host must be numerical. -/
def endsInNumber (host : List Char) : Bool :=
  match (labels host).getLast? with
  | some l => (l ≠ [] && l.all isDigit) || ("0x".toList.isPrefixOf l && (numeral? 16 (l.drop 2)).isSome)
  | none => false

def decimal (n : Nat) : List Char := (toString n).toList

def dotted (n : Nat) : List Char :=
  List.intercalate ['.']
    [decimal (n / 16777216), decimal (n / 65536 % 256), decimal (n / 256 % 256), decimal (n % 256)]

/-- The number that a numerical host is. -/
def ipv4? (host : List Char) : Option Nat := do
  let ns ← (labels host).mapM hostNumber?
  let last ← ns.getLast?
  if 4 < ns.length ∨ ns.dropLast.any (255 < ·) ∨ Nat.pow 256 (5 - ns.length) ≤ last then none
  else
    let high := ns.dropLast.foldl (fun (a : Nat × Nat) n => (a.1 + n * Nat.pow 256 (3 - a.2), a.2 + 1)) (0, 0)
    some (high.1 + last)

/-- One group of hexadecimal digits, or two from a dotted number. -/
def ipv6Group? (isLast : Bool) (cs : List Char) : Option (List Nat) :=
  if isLast && cs.contains '.' then
    match (partsAt '.' cs).mapM (fun p =>
        if p = [] ∨ 3 < p.length ∨ (p.head? = some '0' ∧ 1 < p.length) then none else numeral? 10 p) with
    | some [a, b, c, d] => if [a, b, c, d].any (255 < ·) then none else some [a * 256 + b, c * 256 + d]
    | _ => none
  else if cs = [] ∨ 4 < cs.length then none
  else (numeral? 16 cs).map fun n => [n]

def ipv6Groups? (mayEndDotted : Bool) (cs : List Char) : Option (List Nat) :=
  if cs = [] then some []
  else
    let parts := partsAt ':' cs
    let ends := parts.zipIdx.mapM fun p => ipv6Group? (mayEndDotted && p.2 + 1 == parts.length) p.1
    ends.map List.flatten

/-- What stands before and behind the first two colons in a row. -/
def splitColons : List Char → Option (List Char × List Char)
  | ':' :: ':' :: rest => some ([], rest)
  | c :: rest => (splitColons rest).map fun r => (c :: r.1, r.2)
  | [] => none

/-- The eight groups of an address between brackets. -/
def ipv6? (cs : List Char) : Option (List Nat) :=
  match splitColons cs with
  | none => (ipv6Groups? true cs).filter fun gs => gs.length == 8
  | some (before, after) => do
    let front ← ipv6Groups? false before
    let back ← ipv6Groups? true after
    if 7 < front.length + back.length then none
    else some (front ++ List.replicate (8 - front.length - back.length) 0 ++ back)

/-- The length of the run of zeros at the front. -/
def zeros (gs : List Nat) : Nat := (gs.takeWhile (· == 0)).length

/-- Where the first longest run of zeros starts, and its length. -/
def longestZeros (gs : List Nat) : Nat × Nat :=
  (List.range gs.length).foldl (fun best i =>
      if best.2 < zeros (gs.drop i) then (i, zeros (gs.drop i)) else best)
    (0, 0)

def renderGroups (gs : List Nat) : List Char := List.intercalate [':'] (gs.map fun g => Nat.toDigits 16 g)

def renderIpv6 (gs : List Nat) : List Char :=
  let (start, run) := longestZeros gs
  if run < 2 then '[' :: renderGroups gs ++ [']']
  else '[' :: renderGroups (gs.take start) ++ ':' :: ':' :: renderGroups (gs.drop (start + run)) ++ [']']

/-- The host of a special address in its written form. -/
def specialHost? (cs : List Char) : Option (List Char) :=
  match cs with
  | '[' :: rest => if rest.getLast? = some ']' then (ipv6? (rest.dropLast.map lower)).map renderIpv6 else none
  | _ => do
    let host ← HostName.ascii? (Utf8.decodeLossy (Form.percentDecode (Utf8.encode cs)))
    if host = [] ∨ host.any isForbidden then none
    else if endsInNumber host then (ipv4? host).map dotted
    else some host

/-- The host of any other address. -/
def plainHost? (cs : List Char) : Option (List Char) :=
  match cs with
  | '[' :: rest => if rest.getLast? = some ']' then (ipv6? (rest.dropLast.map lower)).map renderIpv6 else none
  | _ => if cs.any fun c => isForbidden c && c != '%' then none else some (escape [] cs)

/-! ### Paths -/

def isSingleDot (s : List Char) : Bool := s == ['.'] || s.map lower == "%2e".toList

def isDoubleDot (s : List Char) : Bool :=
  let s := s.map lower
  s == "..".toList || s == ".%2e".toList || s == "%2e.".toList || s == "%2e%2e".toList

/-- The segments of a path, those before in reverse, with dots resolved. -/
def resolve (done : List (List Char)) : List (List Char) → List (List Char)
  | [] => done.reverse
  | s :: rest =>
    if isDoubleDot s then resolve (if rest.isEmpty then [] :: done.tail else done.tail) rest
    else if isSingleDot s then resolve (if rest.isEmpty then [] :: done else done) rest
    else resolve (escape pathMarks s :: done) rest

/-- A path that starts with a slash. -/
def makePath (special : Bool) (cs : List Char) : List Char :=
  let cs := if special then cs.map fun c => if c = '\\' then '/' else c else cs
  (resolve [] (partsAt '/' (if cs.head? = some '/' then cs.tail else cs))).flatMap ('/' :: ·)

/-! ### Reading -/

/-- What does not count in an address. -/
def isIgnored (c : Char) : Bool := c == '\t' || c == '\n' || c == '\r'

def tidy (cs : List Char) : List Char :=
  let blank (c : Char) := c.toNat ≤ 0x20
  (((cs.dropWhile blank).reverse.dropWhile blank).reverse).filter (!isIgnored ·)

/-- The scheme and what follows its colon. -/
def splitScheme? (cs : List Char) : Option (List Char × List Char) :=
  let scheme := cs.takeWhile fun c => isLetter c || isDigit c || c == '+' || c == '-' || c == '.'
  match scheme, cs.drop scheme.length with
  | c :: _, ':' :: rest => if isLetter c then some (scheme.map lower, rest) else none
  | _, _ => none

/-- The text without its fragment and its query. -/
def splitTail (special : Bool) (cs : List Char) : List Char × Option (List Char) × Option (List Char) :=
  let front := cs.takeWhile (· != '#')
  let body := front.takeWhile (· != '?')
  (body, (front.dropWhile (· != '?')).tail?.map (escape (queryMarks special)),
    (cs.dropWhile (· != '#')).tail?.map (escape fragmentMarks))

/-- The authority without name and password. -/
def withoutUser (cs : List Char) : List Char := (cs.reverse.takeWhile (· != '@')).reverse

/-- The host and the digits of the port. -/
def splitPort (cs : List Char) : List Char × Option (List Char) :=
  let behind := (cs.reverse.takeWhile fun c => c != ':' && c != ']').reverse
  let front := cs.take (cs.length - behind.length)
  if front.getLast? = some ':' then (front.dropLast, some behind) else (cs, none)

/-- The port that digits write, unless that goes without saying. -/
def port? (scheme : List Char) : Option (List Char) → Option (Option Nat)
  | none => some none
  | some digits =>
    if !digits.all isDigit then none
    else if digits.isEmpty then some none
    else
      match numeral? 10 digits with
      | some n => if 65535 < n then none else some (if usualPort? scheme = some n then none else some n)
      | none => none

/-- An address with an authority. -/
def ofAuthority? (scheme text : List Char) : Option Url := do
  let special := isSpecial scheme
  let (body, query, fragment) := splitTail special text
  let ends (c : Char) := c == '/' || (special && c == '\\')
  let authority := withoutUser (body.takeWhile fun c => !ends c)
  let rest := body.dropWhile fun c => !ends c
  let (name, digits) := splitPort authority
  let port ← port? scheme digits
  let host ← if special then specialHost? name else plainHost? name
  if host = [] ∧ digits.isSome then none
  else some ⟨scheme, some host, port, if special ∨ rest ≠ [] then makePath special rest else [], query, fragment⟩

/-- An address of a file. -/
def ofFile? (text : List Char) : Option Url := do
  let (body, query, fragment) := splitTail true text
  let slashed := body.map fun c => if c = '\\' then '/' else c
  match slashed with
  | '/' :: '/' :: rest =>
    let name := rest.takeWhile (· != '/')
    let host ← if name = [] then some [] else specialHost? name
    some ⟨"file".toList, some (if host = "localhost".toList then [] else host), none,
      makePath true (rest.dropWhile (· != '/')), query, fragment⟩
  | _ => some ⟨"file".toList, some [], none, makePath true slashed, query, fragment⟩

/-- An address without an authority. -/
def ofPath (scheme text : List Char) : Url :=
  let (body, query, fragment) := splitTail false text
  ⟨scheme, none, none, if body.head? = some '/' then makePath false body else escape [] body, query, fragment⟩

def parse? (s : String) : Option Url := do
  let (scheme, rest) ← splitScheme? (tidy s.toList)
  if isFile scheme then ofFile? rest
  else if isSpecial scheme then ofAuthority? scheme (rest.dropWhile fun c => c == '/' || c == '\\')
  else if "//".toList.isPrefixOf rest then ofAuthority? scheme (rest.drop 2)
  else some (ofPath scheme rest)

/-! ### Writing -/

def behind (mark : Char) : Option (List Char) → List Char
  | none => []
  | some cs => mark :: cs

/-- The path and the query. -/
def target (u : Url) : List Char := u.path ++ behind '?' u.query

def print (u : Url) : List Char :=
  let authority := match u.host with
    | none => []
    | some h => "//".toList ++ h ++ behind ':' (u.port.map decimal)
  u.scheme ++ ':' :: authority ++ u.target ++ behind '#' u.fragment

def render (u : Url) : String := String.ofList u.print

def hasHost (u : Url) : Bool := u.host.any (! ·.isEmpty)

/-- Whether requests can be sent there. -/
def isHttp (u : Url) : Bool := u.scheme == "http".toList || u.scheme == "https".toList

/-- The address with entries added to its query. -/
def withEntries (u : Url) (entries : List (String × String)) : Url :=
  let added := (Form.encode entries).map fun b => Char.ofNat b.toNat
  { u with query := some (match u.query with
      | some (c :: q) => c :: q ++ '&' :: added
      | _ => added) }

end Url

end Fulfilment
