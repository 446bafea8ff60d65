/-!
# Shortest decimals

The fewest digits that read back as a given binary fraction, and its text. A fraction `m · 2^q` owns the reals that
round to it, its ends included when `m` is even. `Binary.digits` walks the decimal grids from one digit on and takes
the first grid that has a point in that interval, of two points the nearer, of two equally near the even one.

* `Layout`: where plain notation ends.
* `renderFloat`: the text of a double.
-/

namespace Fulfilment

namespace Decimal

/-- The positive fraction `m · 2^q`; `narrow` where the gap below it is half the gap above. -/
structure Binary where
  m : Nat
  q : Int
  narrow : Bool
  deriving Repr

/-- A positive number in scientific form: its digits, the first before the point, and the power of ten. -/
structure Scientific where
  digits : List Char
  exponent : Int
  deriving Repr

/-- A non-negative rational over a positive denominator. -/
structure Ratio where
  num : Nat
  den : Nat

namespace Ratio

def scale2 (n : Nat) (q : Int) : Ratio :=
  if 0 ≤ q then ⟨n * Nat.pow 2 q.toNat, 1⟩ else ⟨n, Nat.pow 2 (-q).toNat⟩

/-- `r / 10^s`. -/
def shift10 (r : Ratio) (s : Int) : Ratio :=
  if 0 ≤ s then ⟨r.num, r.den * Nat.pow 10 s.toNat⟩ else ⟨r.num * Nat.pow 10 (-s).toNat, r.den⟩

/-- The largest `e` with `10^e ≤ r`, for `r` not zero. -/
def log10 (r : Ratio) : Int :=
  if r.den ≤ r.num then ((Nat.toDigits 10 (r.num / r.den)).length : Int) - 1
  else
    let t := (Nat.toDigits 10 (r.den / r.num)).length - 1
    if r.den ≤ r.num * Nat.pow 10 t then -(t : Int) else -(t : Int) - 1

end Ratio

namespace Binary

def value (b : Binary) : Ratio := Ratio.scale2 b.m b.q

/-- The ends of the interval that rounds to `b`. -/
def low (b : Binary) : Ratio := Ratio.scale2 (4 * b.m - if b.narrow then 1 else 2) (b.q - 2)
def high (b : Binary) : Ratio := Ratio.scale2 (4 * b.m + 2) (b.q - 2)

/-- Whether `k · 10^s` reads back as `b`. -/
def owns (b : Binary) (k : Nat) (s : Int) : Bool :=
  let l := b.low.shift10 s
  let h := b.high.shift10 s
  if b.m % 2 = 0 then l.num ≤ k * l.den && k * h.den ≤ h.num
  else l.num < k * l.den && k * h.den < h.num

/-- The point of the grid of `n` digits that stands for `b`, if one does. -/
def onGrid (b : Binary) (e : Int) (n : Nat) : Option (Nat × Int) :=
  let s := e + 1 - n
  let v := b.value.shift10 s
  let k := v.num / v.den
  match b.owns k s, b.owns (k + 1) s with
  | true, true =>
    let below := v.num - k * v.den
    let above := (k + 1) * v.den - v.num
    if below < above ∨ (below = above ∧ k % 2 = 0) then some (k, s) else some (k + 1, s)
  | true, false => some (k, s)
  | false, true => some (k + 1, s)
  | false, false => none

/-- Looks from the grid of `n` digits on through `fuel` grids. -/
def search (b : Binary) (e : Int) (n : Nat) : Nat → Nat × Int
  | 0 => (b.m, 0)
  | fuel + 1 => (b.onGrid e n).getD (search b e (n + 1) fuel)

def digits (b : Binary) : Scientific :=
  let (k, s) := b.search b.value.log10 1 17
  let ds := Nat.toDigits 10 k
  ⟨(ds.reverse.dropWhile (· == '0')).reverse, s + ds.length - 1⟩

end Binary

/-- Plain notation is used for exponents from `least` up to, but not including, `most`. -/
structure Layout where
  least : Int
  most : Int

namespace Layout

def plain (s : Scientific) : List Char :=
  let e := s.exponent
  if e < 0 then "0.".toList ++ List.replicate (-e - 1).toNat '0' ++ s.digits
  else
    let whole := s.digits.take (e.toNat + 1)
    let part := s.digits.drop (e.toNat + 1)
    whole ++ List.replicate (e.toNat + 1 - whole.length) '0' ++ ['.'] ++ (if part.isEmpty then ['0'] else part)

def power (s : Scientific) : List Char :=
  let part := s.digits.drop 1
  s.digits.take 1 ++ (if part.isEmpty then [] else '.' :: part) ++ ['e', if s.exponent < 0 then '-' else '+'] ++
    Nat.toDigits 10 s.exponent.natAbs

def render (l : Layout) (s : Scientific) : List Char :=
  if l.least ≤ s.exponent ∧ s.exponent < l.most then plain s else power s

end Layout

/-- The fraction that a double's magnitude stands for, `none` for zero. -/
def binary? (bits : UInt64) : Option Binary :=
  let mantissa := (bits &&& 0xFFFFFFFFFFFFF).toNat
  let exponent := ((bits >>> 52) &&& 0x7FF).toNat
  if exponent = 0 then
    if mantissa = 0 then none else some ⟨mantissa, -1074, false⟩
  else some ⟨Nat.pow 2 52 + mantissa, exponent - 1075, mantissa == 0 && exponent != 1⟩

end Decimal

/-- Fractions are written plainly from 1e-5 up to below 1e16, always with a digit after the point. -/
def floatLayout : Decimal.Layout := ⟨-5, 16⟩

/-- The text of a finite double. -/
def renderFloat (x : Float) : List Char :=
  let sign := if x.toBits >>> 63 = 1 then ['-'] else []
  match Decimal.binary? x.toBits with
  | none => sign ++ "0.0".toList
  | some b => sign ++ floatLayout.render b.digits

end Fulfilment
