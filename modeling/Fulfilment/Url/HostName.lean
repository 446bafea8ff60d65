import Fulfilment.Text.Parts
import Fulfilment.Text.Utf8
import Fulfilment.Url.Punycode

/-!
# Host names

Characters of a host name that differ only in case or width are one, and some do not count. This holds here for the
letters of the Latin, Greek, Cyrillic and Armenian alphabets; all other characters stand for themselves.

* `HostName.ascii?`: the one form of a host name in ASCII.
-/

namespace Fulfilment

namespace HostName

/-- Characters that do not count. -/
def isIgnored (n : Nat) : Bool :=
  n == 0xAD || n == 0x34F || (0x180B ≤ n && n ≤ 0x180F) || n == 0x200B || n == 0x2060 || n == 0x2064 ||
    (0xFE00 ≤ n && n ≤ 0xFE0F) || n == 0xFEFF

/-- Runs of capital letters whose small letters lie at one distance: the first, the last and the distance. -/
def shifted : List (Nat × Nat × Nat) :=
  [(0x41, 0x5A, 32), (0xC0, 0xD6, 32), (0xD8, 0xDE, 32), (0x386, 0x386, 38), (0x388, 0x38A, 37), (0x38C, 0x38C, 64),
    (0x38E, 0x38F, 63), (0x391, 0x3A1, 32), (0x3A3, 0x3AB, 32), (0x400, 0x40F, 80), (0x410, 0x42F, 32),
    (0x4C0, 0x4C0, 15), (0x531, 0x556, 48)]

/-- Runs in which every other letter is a capital, followed by its small letter: the first and the last capital. -/
def alternating : List (Nat × Nat) :=
  [(0x100, 0x12E), (0x132, 0x132), (0x134, 0x136), (0x139, 0x13D), (0x141, 0x147), (0x14A, 0x176), (0x179, 0x17D),
    (0x460, 0x480), (0x48A, 0x4BE), (0x4C1, 0x4CD), (0x4D0, 0x52E)]

def small (n : Nat) : Nat :=
  match shifted.find? fun r => r.1 ≤ n && n ≤ r.2.1 with
  | some r => n + r.2.2
  | none => if alternating.any fun r => r.1 ≤ n && n ≤ r.2 && (n - r.1) % 2 == 0 then n + 1 else n

/-- The plain form of letters that have other forms. -/
def plainForms : List (Nat × Nat) := [(0x178, 0xFF), (0x17F, 0x73), (0x212A, 0x6B), (0x212B, 0xE5), (0xB5, 0x3BC)]

/-- Full stops that end labels. -/
def isStop (n : Nat) : Bool := n == 0x3002 || n == 0xFF61

/-- What a character of a host name stands for. -/
def fold (c : Char) : List Char :=
  let n := c.toNat
  if isIgnored n then []
  else if isStop n then ['.']
  else if 0xFF01 ≤ n ∧ n ≤ 0xFF5E then [Char.ofNat (small (n - 0xFEE0))]
  else [Char.ofNat ((plainForms.lookup n).getD (small n))]

/-- The name in ASCII; a name that could not be read has none. -/
def ascii? (cs : List Char) : Option (List Char) :=
  if cs.contains Utf8.replacement then none
  else some (List.intercalate ['.'] ((partsAt '.' (cs.flatMap fold)).map Punycode.asciiLabel))

end HostName

end Fulfilment
