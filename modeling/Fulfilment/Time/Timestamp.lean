import Fulfilment.Text.Blank
import Fulfilment.Text.Numeral
import Fulfilment.Time.Instant

/-!
# Timestamps

The text of instants: `2024-05-01T10:00:00Z`, with 0, 3, 6 or 9 digits of a fraction as needed. Reading is lenient
about blanks, leading zeros, the letter between date and time, and the zone, which may be `Z`, `UTC` or an offset.

* `Timestamp.parse`: the reader, with the ways in which it fails.
* `Timestamp.print`: the writer.
-/

namespace Fulfilment

namespace Timestamp

inductive ParseError
  | outOfRange
  | impossible
  | invalid
  | tooShort
  | tooLong
  deriving DecidableEq, Repr

namespace ParseError

def message : ParseError → String
  | outOfRange => "input is out of range"
  | impossible => "no possible date and time matching input"
  | invalid => "input contains invalid characters"
  | tooShort => "premature end of input"
  | tooLong => "trailing input"

end ParseError

/-! ### Writing -/

/-- `n` in at least `width` digits. -/
def padded (width n : Nat) : List Char :=
  let ds := Nat.toDigits 10 n
  List.replicate (width - ds.length) '0' ++ ds

def printYear (y : Int) : List Char :=
  if 0 ≤ y ∧ y ≤ 9999 then padded 4 y.toNat
  else (if y < 0 then '-' else '+') :: padded 4 y.natAbs

def printFraction (n : Nat) : List Char :=
  if n = 0 then []
  else if n % 1000000 = 0 then '.' :: padded 3 (n / 1000000)
  else if n % 1000 = 0 then '.' :: padded 6 (n / 1000)
  else '.' :: padded 9 n

def print (a : Instant) : List Char :=
  let leap := 1000000000 ≤ a.nanos
  printYear a.date.year ++ '-' :: padded 2 a.date.month ++ '-' :: padded 2 a.date.day ++ 'T' ::
    padded 2 (a.second / 3600) ++ ':' :: padded 2 (a.second / 60 % 60) ++ ':' ::
    padded 2 (a.second % 60 + if leap then 1 else 0) ++
    printFraction (if leap then a.nanos - 1000000000 else a.nanos) ++ ['Z']

def render (a : Instant) : String := String.ofList (print a)

/-- `20240501-100000`. -/
def stamp (a : Instant) : String :=
  String.ofList (printYear a.date.year ++ padded 2 a.date.month ++ padded 2 a.date.day ++ '-' ::
    padded 2 (a.second / 3600) ++ padded 2 (a.second / 60 % 60) ++
    padded 2 (a.second % 60 + if 1000000000 ≤ a.nanos then 1 else 0))

/-! ### Reading -/

/-- Adds up to `width` digits to `n`. -/
def digits (n : Nat) : Nat → List Char → Except ParseError (Nat × List Char)
  | 0, cs => .ok (n, cs)
  | _ + 1, [] => .ok (n, [])
  | width + 1, c :: cs =>
    match digit? c with
    | none => .ok (n, c :: cs)
    | some d => if n * 10 + d ≤ max64.toNat then digits (n * 10 + d) width cs else .error .outOfRange

/-- From one to `width` digits. -/
def number (width : Nat) : List Char → Except ParseError (Nat × List Char)
  | [] => .error .tooShort
  | c :: cs => if (digit? c).isSome then digits 0 width (c :: cs) else .error .invalid

/-- A number in a range, after blanks. -/
def ranged (lo hi : Nat) (cs : List Char) : Except ParseError (Nat × List Char) := do
  let (n, rest) ← number 2 (Blank.trimStart cs)
  if lo ≤ n ∧ n ≤ hi then .ok (n, rest) else .error .outOfRange

/-- A year: four digits, or any number of them after a sign. -/
def year (cs : List Char) : Except ParseError (Int × List Char) :=
  match Blank.trimStart cs with
  | '-' :: rest => do
    let (n, more) ← number rest.length rest
    .ok (-(n : Int), more)
  | '+' :: rest => do
    let (n, more) ← number rest.length rest
    .ok (n, more)
  | rest => do
    let (n, more) ← number 4 rest
    .ok (n, more)

/-- The character `c`, after blanks. -/
def mark (c : Char) (cs : List Char) : Except ParseError (List Char) :=
  match Blank.trimStart cs with
  | [] => .error .tooShort
  | d :: rest => if d = c then .ok rest else .error .invalid

/-- The fraction of a second in nanoseconds; digits beyond the ninth count for nothing. -/
def fraction : List Char → Except ParseError (Nat × List Char)
  | '.' :: cs => do
    let (n, rest) ← number 9 cs
    .ok (n * Nat.pow 10 (9 - (cs.length - rest.length)), rest.dropWhile fun c => (digit? c).isSome)
  | cs => .ok (0, cs)

/-- Two digits that count minutes or hours. -/
def pair : List Char → Except ParseError (Char × Char)
  | [] => .error .tooShort
  | [c] => if c.toNat < 0x80 then .error .tooShort else .error .invalid
  | c :: d :: _ => .ok (c, d)

def offsetMinutes (cs : List Char) : Except ParseError Nat :=
  match cs with
  | [] => .error .tooShort
  | [c] => if c.toNat < 0x80 then .error .tooShort else .error .invalid
  | c :: d :: _ =>
    match digit? c, digit? d with
    | some m, some n => if m < 6 then .ok (m * 10 + n) else .error .outOfRange
    | _, _ => .error .invalid

def offsetHours (cs : List Char) : Except ParseError Nat := do
  let (c, d) ← pair cs
  match digit? c, digit? d with
  | some m, some n => .ok (m * 10 + n)
  | _, _ => .error .invalid

/-- An offset without its sign, in seconds. -/
def offset (cs : List Char) : Except ParseError (Nat × List Char) := do
  let hours ← offsetHours cs
  let rest := (cs.drop 2).dropWhile fun c => c == ':' || isBlank c
  let minutes ← offsetMinutes rest
  .ok (hours * 3600 + minutes * 60, rest.drop 2)

/-- The minus sign of typographers. -/
def minusSign : Char := Char.ofNat 0x2212

def isUtc (cs : List Char) : Bool :=
  match cs with
  | u :: t :: c :: _ => (u == 'U' || u == 'u') && (t == 'T' || t == 't') && (c == 'C' || c == 'c')
  | _ => false

/-- How many seconds the zone is ahead of universal time. -/
def zone (cs : List Char) : Except ParseError (Int × List Char) :=
  if isUtc cs then .ok (0, cs.drop 3)
  else
    match cs with
    | [] => .error .tooShort
    | c :: rest =>
      if c = 'Z' ∨ c = 'z' then .ok (0, rest)
      else if c = '+' then do
        let (n, more) ← offset rest
        .ok (n, more)
      else if c = '-' ∨ c = minusSign then do
        let (n, more) ← offset rest
        .ok (-(n : Int), more)
      else .error .invalid

def separator : List Char → Except ParseError (List Char)
  | [] => .error .tooShort
  | c :: rest => if c = 'T' ∨ c = 't' ∨ c = ' ' then .ok rest else .error .invalid

/-- The instant at a date and time of day in a zone; the sixtieth second is the leap second. -/
def assemble (y : Int) (mo d h mi s n : Nat) (z : Int) : Except ParseError Instant :=
  match Date.make? y mo d with
  | none => .error .outOfRange
  | some date =>
    if z ≤ -86400 ∨ 86400 ≤ z then .error .outOfRange
    else
      let leap := s = 60
      let second := h * 3600 + mi * 60 + if leap then 59 else s
      match Instant.shift? date second (if leap then n + 1000000000 else n) z with
      | none => .error .impossible
      | some a => .ok a

def parseChars (cs : List Char) : Except ParseError Instant := do
  let (y, cs) ← year cs
  let cs ← mark '-' cs
  let (mo, cs) ← ranged 1 12 cs
  let cs ← mark '-' cs
  let (d, cs) ← ranged 1 31 cs
  let cs ← separator cs
  let (h, cs) ← ranged 0 23 cs
  let cs ← mark ':' cs
  let (mi, cs) ← ranged 0 59 cs
  let cs ← mark ':' cs
  let (s, cs) ← ranged 0 60 cs
  let (n, cs) ← fraction cs
  let (z, cs) ← zone (Blank.trimStart cs)
  if (Blank.trimStart cs).isEmpty then assemble y mo d h mi s n z else .error .tooLong

def parse (s : String) : Except ParseError Instant := parseChars s.toList

end Timestamp

end Fulfilment
