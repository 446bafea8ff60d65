import Fulfilment.Text.Utf8

/-!
# Targets of requests

The address in a request: a path with an optional query, either alone or behind a scheme and an authority. What
follows a number sign is dropped.

* `Target.parse`: the path and the query, or what is wrong with the address.
-/

namespace Fulfilment

namespace Http

structure Target where
  path : Bytes
  query : Option Bytes
  deriving DecidableEq, Repr

inductive TargetError
  | badCharacter
  | badFormat
  | badAuthority
  | badScheme
  | schemeTooLong
  | empty
  | tooLong
  deriving DecidableEq, Repr

namespace TargetError

def message : TargetError → String
  | badCharacter => "invalid uri character"
  | badFormat => "invalid format"
  | badAuthority => "invalid authority"
  | badScheme => "invalid scheme"
  | schemeTooLong => "scheme too long"
  | empty => "empty string"
  | tooLong => "uri too long"

end TargetError

namespace Target

def isLetterByte (b : UInt8) : Bool := (65 ≤ b && b ≤ 90) || (97 ≤ b && b ≤ 122)

def isDigitByte (b : UInt8) : Bool := 48 ≤ b && b ≤ 57

/-- What may stand in a path. Bytes beyond ASCII must form characters. -/
def isPathByte (b : UInt8) : Bool :=
  b == 0x21 || b == 0x22 || (0x24 ≤ b && b ≤ 0x3B) || b == 0x3D || (0x40 ≤ b && b ≤ 0x5F) || (0x61 ≤ b && b ≤ 0x7E) ||
    0x7F ≤ b

/-- What may stand in a query. -/
def isQueryByte (b : UInt8) : Bool :=
  b == 0x21 || (0x24 ≤ b && b ≤ 0x3B) || b == 0x3D || 0x3F ≤ b

/-- What may stand in an authority; marks of the address itself are told apart before. -/
def isAuthorityByte (b : UInt8) : Bool :=
  isLetterByte b || isDigitByte b || "!$&'()*+,-.;=_~".toList.any fun c => Utf8.byte c.toNat == b

/-- The path and the query of an address that starts with its path. -/
def ofPath (text : Bytes) : Except TargetError Target :=
  let text := text.takeWhile (· != 0x23)
  let path := text.takeWhile (· != 0x3F)
  let query := (text.dropWhile (· != 0x3F)).tail?
  if path.all isPathByte && (query.getD []).all isQueryByte && (Utf8.decode? text).isSome then
    .ok ⟨if path.isEmpty then [0x2F] else path, query⟩
  else .error .badCharacter

/-- What has been seen of an authority. -/
structure AuthorityScan where
  colons : Nat
  opened : Bool
  closed : Bool
  percent : Bool
  /-- Whether the last byte was an at sign. -/
  endsInAt : Bool

/-- Reads an authority up to the path, and counts its bytes. -/
def scanAuthority (s : AuthorityScan) (count : Nat) : Bytes → Except TargetError (AuthorityScan × Nat)
  | [] => .ok (s, count)
  | b :: rest =>
    if b == 0x2F || b == 0x3F || b == 0x23 then .ok (s, count)
    else if b == 0x3A then
      if 8 ≤ s.colons then .ok (s, count + rest.length + 1)
      else scanAuthority { s with colons := s.colons + 1, endsInAt := false } (count + 1) rest
    else if b == 0x5B then
      if s.percent || s.opened then .error .badAuthority
      else scanAuthority { s with opened := true, endsInAt := false } (count + 1) rest
    else if b == 0x5D then
      if !s.opened || s.closed then .error .badAuthority
      else scanAuthority { s with closed := true, colons := 0, percent := false, endsInAt := false } (count + 1) rest
    else if b == 0x40 then
      scanAuthority { s with colons := 0, percent := false, endsInAt := true } (count + 1) rest
    else if b == 0x25 then scanAuthority { s with percent := true, endsInAt := false } (count + 1) rest
    else if isAuthorityByte b then scanAuthority { s with endsInAt := false } (count + 1) rest
    else .error .badCharacter

/-- How many bytes of the text are its authority. -/
def authoritySize (text : Bytes) : Except TargetError Nat := do
  let (s, count) ← scanAuthority ⟨0, false, false, false, false⟩ 0 text
  if s.opened != s.closed || 1 < s.colons || s.endsInAt || s.percent then .error .badAuthority else .ok count

def isSchemeByte (b : UInt8) : Bool :=
  isLetterByte b || isDigitByte b || b == 0x2B || b == 0x2D || b == 0x2E

/-- What follows the scheme, if there is one. -/
def afterScheme? (text : Bytes) : Option (Except TargetError Bytes) :=
  let scheme := text.takeWhile isSchemeByte
  match text.drop scheme.length with
  | 0x3A :: 0x2F :: 0x2F :: rest => some (if 64 < scheme.length then .error .schemeTooLong else .ok rest)
  | _ => none

def parse (text : Bytes) : Except TargetError Target :=
  match text with
  | [] => .error .empty
  | b :: rest =>
    if 65534 < text.length then .error .tooLong
    else if b == 0x2F then ofPath text
    else if b == 0x2A && rest.isEmpty then .ok ⟨text, none⟩
    else
      match afterScheme? text with
      | none => do
        let n ← authoritySize text
        if n = text.length then .ok ⟨[], none⟩ else .error .badFormat
      | some (.error e) => .error e
      | some (.ok rest) => do
        let n ← authoritySize rest
        if n = 0 then .error .badFormat else ofPath (rest.drop n)

end Target

end Http

end Fulfilment
