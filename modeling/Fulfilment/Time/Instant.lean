/-!
# Instants

Dates of the Gregorian calendar and instants of universal time to the nanosecond. A leap second is the last second of
its minute with more than 999 999 999 nanoseconds, so instants are ordered by their parts.

* `Date.make?`: the dates there are.
* `Instant.shift?`: an instant read in a zone, in universal time.
-/

namespace Fulfilment

def isLeapYear (y : Int) : Bool := (y % 4 == 0 && y % 100 != 0) || y % 400 == 0

def daysInMonth (y : Int) (m : Nat) : Nat :=
  if m = 2 then (if isLeapYear y then 29 else 28)
  else if m = 4 ∨ m = 6 ∨ m = 9 ∨ m = 11 then 30
  else 31

/-- The first and the last year of the calendar. -/
def firstYear : Int := -262143
def lastYear : Int := 262142

/-- Whether there is such a day. -/
def isDate (y : Int) (m d : Nat) : Bool :=
  firstYear ≤ y && y ≤ lastYear && 1 ≤ m && m ≤ 12 && 1 ≤ d && d ≤ daysInMonth y m

structure Date where
  year : Int
  month : Nat
  day : Nat
  valid : isDate year month day = true
  deriving DecidableEq

namespace Date

def make? (y : Int) (m d : Nat) : Option Date :=
  if h : isDate y m d = true then some ⟨y, m, d, h⟩ else none

def next? (a : Date) : Option Date :=
  if a.day < daysInMonth a.year a.month then make? a.year a.month (a.day + 1)
  else if a.month < 12 then make? a.year (a.month + 1) 1
  else make? (a.year + 1) 1 1

def previous? (a : Date) : Option Date :=
  if 1 < a.day then make? a.year a.month (a.day - 1)
  else if 1 < a.month then make? a.year (a.month - 1) (daysInMonth a.year (a.month - 1))
  else make? (a.year - 1) 12 31

/-- Days from the first of March of the year zero, months counted from March. -/
def dayNumber (a : Date) : Int :=
  let y := if a.month ≤ 2 then a.year - 1 else a.year
  let m : Int := if a.month ≤ 2 then a.month + 9 else a.month - 3
  365 * y + y / 4 - y / 100 + y / 400 + (153 * m + 2) / 5 + a.day - 1

/-- Days since the first of January 1970. -/
def unixDay (a : Date) : Int := a.dayNumber - 719468

end Date

/-- Whether there is such a time of day: `s` seconds after midnight and `n` nanoseconds. -/
def isTime (s n : Nat) : Bool :=
  s < 86400 && (n < 1000000000 || (s % 60 == 59 && n < 2000000000))

structure Instant where
  date : Date
  second : Nat
  nanos : Nat
  valid : isTime second nanos = true
  deriving DecidableEq

namespace Instant

def make? (d : Date) (s n : Nat) : Option Instant :=
  if h : isTime s n = true then some ⟨d, s, n, h⟩ else none

/-- The instant as numbers, the weightier first. -/
def key (a : Instant) : List Int := [a.date.year, a.date.month, a.date.day, a.second, a.nanos]

/-- Whether one list of numbers is before or at another, by the first place at which they differ. -/
def keyLe : List Int → List Int → Bool
  | [], _ => true
  | _ :: _, [] => false
  | x :: xs, y :: ys => x < y || (x == y && keyLe xs ys)

/-- Not after. -/
def le (a b : Instant) : Bool := keyLe a.key b.key

instance : LE Instant := ⟨fun a b => a.le b = true⟩

instance (a b : Instant) : Decidable (a ≤ b) := inferInstanceAs (Decidable (a.le b = true))

/-- Seconds since the start of 1970. -/
def unixSeconds (a : Instant) : Int := a.date.unixDay * 86400 + a.second

/-- The instant `s` seconds after midnight of `d`, where `s` may lie a day before or after. -/
def ofSeconds? (d : Date) (s : Int) (n : Nat) : Option Instant :=
  if s < 0 then d.previous?.bind fun e => make? e (s + 86400).toNat n
  else if 86400 ≤ s then d.next?.bind fun e => make? e (s - 86400).toNat n
  else make? d s.toNat n

/-- What universal time has when a zone `offset` seconds ahead of it shows the time `s` on the day `d`. -/
def shift? (d : Date) (s n : Nat) (offset : Int) : Option Instant := ofSeconds? d (s - offset) n

end Instant

end Fulfilment
