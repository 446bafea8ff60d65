import Fulfilment.Decimal.Shortest
import Fulfilment.Json.Value

/-!
# Printing values

The compact text of a value: no blanks, members in their order, and in strings only quotes, backslashes and controls
escaped.
-/

namespace Fulfilment

namespace Json

/-- The four digits of a small character code. -/
def hex4 (n : Nat) : List Char :=
  let ds := Nat.toDigits 16 n
  List.replicate (4 - ds.length) '0' ++ ds

def escapeChar (c : Char) : List Char :=
  if c = '"' then ['\\', '"']
  else if c = '\\' then ['\\', '\\']
  else if c = '\x08' then ['\\', 'b']
  else if c = '\x0c' then ['\\', 'f']
  else if c = '\n' then ['\\', 'n']
  else if c = '\r' then ['\\', 'r']
  else if c = '\t' then ['\\', 't']
  else if c.toNat < 0x20 then '\\' :: 'u' :: hex4 c.toNat
  else [c]

def printText (s : String) : List Char := '"' :: s.toList.flatMap escapeChar ++ ['"']

def printInt (n : Int) : List Char := (toString n).toList

/-- `name: value` members between braces. -/
def printMembers (members : List (String × List Char)) : List Char :=
  '\x7b' :: (List.intercalate [','] (members.map fun m => printText m.1 ++ ':' :: m.2)) ++ ['\x7d']

def printList (items : List (List Char)) : List Char :=
  '[' :: List.intercalate [','] items ++ [']']

namespace Value

mutual

def print : Value → List Char
  | null => "null".toList
  | bool true => "true".toList
  | bool false => "false".toList
  | int n => printInt n
  | float x => renderFloat x
  | text s => printText s
  | list items => printList (printItems items)
  | object members => printMembers (printEach members)

def printItems : List Value → List (List Char)
  | [] => []
  | v :: rest => v.print :: printItems rest

def printEach : List (String × Value) → List (String × List Char)
  | [] => []
  | (k, v) :: rest => (k, v.print) :: printEach rest

end

def render (v : Value) : String := String.ofList v.print

end Value

end Json

end Fulfilment
