/-!
# Integers in text

Reading an integer that must lie in a given range: an optional sign, then decimal digits of ASCII, the range checked
after every digit. The first fault from the left is the one reported.

* `readInt`: the reader, with the four ways in which it fails.
-/

namespace Fulfilment

inductive NumeralError
  | empty
  | badDigit
  | tooLarge
  | tooSmall
  deriving DecidableEq, Repr

namespace NumeralError

def message : NumeralError → String
  | empty => "cannot parse integer from empty string"
  | badDigit => "invalid digit found in string"
  | tooLarge => "number too large to fit in target type"
  | tooSmall => "number too small to fit in target type"

end NumeralError

/-- The value of a decimal digit. -/
def digit? (c : Char) : Option Nat :=
  if '0' ≤ c ∧ c ≤ '9' then some (c.toNat - 48) else none

namespace Numeral

/-- Counts up from `n` by the digits `cs`, staying at or below `hi`. -/
def up (hi : Int) (n : Int) : List Char → Except NumeralError Int
  | [] => .ok n
  | c :: cs =>
    match digit? c with
    | none => .error .badDigit
    | some d => if n * 10 + d ≤ hi then up hi (n * 10 + d) cs else .error .tooLarge

/-- Counts down from `n` by the digits `cs`, staying at or above `lo`. -/
def down (lo : Int) (n : Int) : List Char → Except NumeralError Int
  | [] => .ok n
  | c :: cs =>
    match digit? c with
    | none => .error .badDigit
    | some d => if lo ≤ n * 10 - d then down lo (n * 10 - d) cs else .error .tooSmall

end Numeral

/-- The integer that `cs` writes, in the range from `lo` to `hi`. A minus sign is read only where the range has
negative numbers. -/
def readInt (lo hi : Int) : List Char → Except NumeralError Int
  | [] => .error .empty
  | ['+'] => .error .badDigit
  | ['-'] => .error .badDigit
  | '+' :: cs => Numeral.up hi 0 cs
  | '-' :: cs => if lo < 0 then Numeral.down lo 0 cs else .error .badDigit
  | cs => Numeral.up hi 0 cs

/-- The bounds of signed words of 32 and 64 bits. -/
def min32 : Int := -2147483648
def max32 : Int := 2147483647
def min64 : Int := -9223372036854775808
def max64 : Int := 9223372036854775807

/-- The largest unsigned word of 64 bits. -/
def maxWord64 : Int := 18446744073709551615

end Fulfilment
