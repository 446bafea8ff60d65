/-!
# Host names beyond ASCII

A label with characters beyond ASCII is written as `xn--` and a code of ASCII: the plain characters first, then for
each other character, in increasing order, how far on it is in the walk over all characters at all places.
-/

namespace Fulfilment

namespace Punycode

def digit (n : Nat) : Char := if n < 26 then Char.ofNat (97 + n) else Char.ofNat (22 + n)

/-- The bound below which a digit is the last one. -/
def threshold (place bias : Nat) : Nat := if place ≤ bias then 1 else if bias + 26 ≤ place then 26 else place - bias

/-- The digits of a number, the least first. -/
def number (bias place q : Nat) : List Char :=
  let t := threshold place bias
  if q < t then [digit q] else digit (t + (q - t) % (36 - t)) :: number bias (place + 36) ((q - t) / (36 - t))
  termination_by q
  decreasing_by
    have h₁ : 1 ≤ threshold place bias := by
      unfold threshold
      split
      · omega
      · split <;> omega
    exact Nat.lt_of_le_of_lt (Nat.div_le_self _ _) (by omega)

def shrink (delta k : Nat) : Nat × Nat :=
  if 455 < delta then shrink (delta / 35) (k + 36) else (delta, k)
  termination_by delta
  decreasing_by exact Nat.div_lt_self (by omega) (by omega)

/-- The bias after a number. -/
def adapt (delta count : Nat) (first : Bool) : Nat :=
  let d := if first then delta / 700 else delta / 2
  let r := shrink (d + d / count) 0
  r.2 + 36 * r.1 / (r.1 + 38)

/-- What is known while a label is encoded. -/
structure Walk where
  written : List Char
  delta : Nat
  bias : Nat
  handled : Nat
  /-- The character from which the walk goes on. -/
  next : Nat
  first : Bool

/-- Goes over one place of the label for the character `m`. -/
def visit (m : Nat) (w : Walk) (c : Char) : Walk :=
  if c.toNat < m then { w with delta := w.delta + 1 }
  else if c.toNat = m then
    { w with
      written := w.written ++ number w.bias 36 w.delta
      bias := adapt w.delta (w.handled + 1) w.first
      delta := 0
      handled := w.handled + 1
      first := false }
  else w

/-- Goes over the whole label for the character `m`. -/
def visitAll (label : List Char) (w : Walk) (m : Nat) : Walk :=
  let w := label.foldl (visit m) { w with delta := w.delta + (m - w.next) * (w.handled + 1) }
  { w with delta := w.delta + 1, next := m + 1 }

def encode (label : List Char) : List Char :=
  let plain := label.filter fun c => c.toNat < 128
  let others := (((label.map Char.toNat).filter fun n => 128 ≤ n).mergeSort).eraseDups
  let start := if plain.isEmpty then [] else plain ++ ['-']
  (others.foldl (visitAll label) ⟨start, 0, 72, plain.length, 128, true⟩).written

/-- A label in ASCII. -/
def asciiLabel (label : List Char) : List Char :=
  if label.all fun c => c.toNat < 128 then label else "xn--".toList ++ encode label

end Punycode

end Fulfilment
