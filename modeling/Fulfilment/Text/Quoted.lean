import Fulfilment.Text.Printable

/-!
# Quoted text

Text between quotes with a backslash before quotes and backslashes, short names for the common controls, and the code
of every other character that does not show.
-/

namespace Fulfilment

namespace Quoted

def hexDigits (n : Nat) : List Char := Nat.toDigits 16 n

def escape (c : Char) : List Char :=
  if c = '\x00' then ['\\', '0']
  else if c = '\t' then ['\\', 't']
  else if c = '\r' then ['\\', 'r']
  else if c = '\n' then ['\\', 'n']
  else if c = '\\' then ['\\', '\\']
  else if c = '"' then ['\\', '"']
  else if isPrintable c then [c]
  else "\\u\x7b".toList ++ hexDigits c.toNat ++ "\x7d".toList

end Quoted

/-- `s` between quotes, every character visible. -/
def quoted (s : String) : String := String.ofList ('"' :: s.toList.flatMap Quoted.escape ++ ['"'])

end Fulfilment
