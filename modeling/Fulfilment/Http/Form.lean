import Fulfilment.Text.Parts
import Fulfilment.Text.Utf8

/-!
# Forms in addresses

Entries of a name and a value, joined by `&`. A space is written as a plus sign, and all but letters, digits and four
marks as their bytes in hexadecimal.

* `Form.encode`, `Form.decode`: the entries as text, and back.
-/

namespace Fulfilment

namespace Form

def isPlain (b : UInt8) : Bool :=
  (48 ≤ b && b ≤ 57) || (65 ≤ b && b ≤ 90) || (97 ≤ b && b ≤ 122) || b == 42 || b == 45 || b == 46 || b == 95

/-- The digit of a number below sixteen. -/
def hexDigit (n : Nat) : UInt8 := if n < 10 then Utf8.byte (48 + n) else Utf8.byte (55 + n)

def hexValue? (b : UInt8) : Option Nat :=
  if 48 ≤ b ∧ b ≤ 57 then some (b.toNat - 48)
  else if 65 ≤ b ∧ b ≤ 70 then some (b.toNat - 55)
  else if 97 ≤ b ∧ b ≤ 102 then some (b.toNat - 87)
  else none

/-- A byte as a percent sign and two digits. -/
def percent (b : UInt8) : Bytes := [37, hexDigit (b.toNat / 16), hexDigit (b.toNat % 16)]

def encodeByte (b : UInt8) : Bytes := if isPlain b then [b] else if b = 32 then [43] else percent b

def encodePart (s : String) : Bytes := (Utf8.ofString s).flatMap encodeByte

def encodeEntry (e : String × String) : Bytes := encodePart e.1 ++ 61 :: encodePart e.2

def encode (entries : List (String × String)) : Bytes := List.intercalate [38] (entries.map encodeEntry)

/-- The bytes with each percent sign and two digits resolved; one without them stands for itself. -/
def percentDecode : Bytes → Bytes
  | [] => []
  | [b] => [b]
  | [b, c] => [b, c]
  | b :: c :: d :: rest =>
    if b = 37 then
      match hexValue? c, hexValue? d with
      | some m, some n => Utf8.byte (m * 16 + n) :: percentDecode rest
      | _, _ => b :: percentDecode (c :: d :: rest)
    else b :: percentDecode (c :: d :: rest)

def decodePart (bs : Bytes) : String :=
  String.ofList (Utf8.decodeLossy (percentDecode (bs.map fun b => if b = 43 then 32 else b)))

def decodeEntry (bs : Bytes) : String × String :=
  (decodePart (bs.takeWhile (· != 61)), decodePart ((bs.dropWhile (· != 61)).drop 1))

/-- The entries of a text; between two separators without anything there is none. -/
def decode (bs : Bytes) : List (String × String) := ((partsAt 38 bs).filter (!·.isEmpty)).map decodeEntry

end Form

end Fulfilment
