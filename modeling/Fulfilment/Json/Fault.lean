import Fulfilment.Decimal.Shortest
import Fulfilment.Text.Numeral
import Fulfilment.Text.Quoted
import Fulfilment.Time.Timestamp
import Fulfilment.Uuid

/-!
# Faults in a document

What can be wrong with a text that should hold a value, and where. A text is *malformed* where it breaks the grammar,
and it is a *mismatch* where it holds a value of another shape than the reader wants.

* `Malformation.message`, `Mismatch.message`: the wording of each cause.
* `Fault.message`: the wording with the place.
-/

namespace Fulfilment

namespace Json

/-- A place in a text, counted in lines and bytes of the line. -/
structure Position where
  line : Nat
  column : Nat
  deriving DecidableEq, Repr

namespace Position

def start : Position := ⟨1, 0⟩

/-- The place after the byte `b`. -/
def after (p : Position) (b : UInt8) : Position := if b = 10 then ⟨p.line + 1, 0⟩ else ⟨p.line, p.column + 1⟩

end Position

inductive Malformation
  | endInList
  | endInObject
  | endInText
  | endInValue
  | noColon
  | noListComma
  | noObjectComma
  | noWord
  | noValue
  | badEscape
  | badNumber
  | numberOutOfRange
  | badCodePoint
  | controlCharacter
  | keyNotText
  | loneSurrogate
  | openSurrogate
  | trailingComma
  | trailingCharacters
  | tooDeep
  deriving DecidableEq, Repr

namespace Malformation

def message : Malformation → String
  | endInList => "EOF while parsing a list"
  | endInObject => "EOF while parsing an object"
  | endInText => "EOF while parsing a string"
  | endInValue => "EOF while parsing a value"
  | noColon => "expected `:`"
  | noListComma => "expected `,` or `]`"
  | noObjectComma => "expected `,` or `\x7d`"
  | noWord => "expected ident"
  | noValue => "expected value"
  | badEscape => "invalid escape"
  | badNumber => "invalid number"
  | numberOutOfRange => "number out of range"
  | badCodePoint => "invalid unicode code point"
  | controlCharacter => "control character (\\u0000-\\u001F) found while parsing a string"
  | keyNotText => "key must be a string"
  | loneSurrogate => "lone leading surrogate in hex escape"
  | openSurrogate => "unexpected end of hex escape"
  | trailingComma => "trailing comma"
  | trailingCharacters => "trailing characters"
  | tooDeep => "recursion limit exceeded"

end Malformation

/-- The shape of a value that was met. -/
inductive Found
  | null
  | bool (b : Bool)
  | int (n : Int)
  | float (x : Float)
  | text (s : String)
  | list
  | object
  deriving Repr

namespace Found

def message : Found → String
  | null => "null"
  | bool true => "boolean `true`"
  | bool false => "boolean `false`"
  | int n => "integer `" ++ toString n ++ "`"
  | float x => "floating point `" ++ String.ofList (renderFloat x) ++ "`"
  | text s => "string " ++ quoted s
  | list => "sequence"
  | object => "map"

end Found

inductive Mismatch
  /-- A value of another kind. -/
  | kind (found : Found) (expected : String)
  /-- A value of the right kind beyond its range. -/
  | range (found : Found) (expected : String)
  /-- A list with too few items. -/
  | size (found : Nat) (expected : String)
  | missing (field : String)
  | duplicate (field : String)
  | variant (found : String) (known : List String)
  | uuid (error : Uuid.ParseError)
  | instant (error : Timestamp.ParseError)
  | numeral (error : NumeralError)

namespace Mismatch

/-- `a` or `b`, each between backticks. -/
def oneOf (names : List String) : String := " or ".intercalate (names.map fun n => "`" ++ n ++ "`")

def message : Mismatch → String
  | kind found expected => s!"invalid type: {found.message}, expected {expected}"
  | range found expected => s!"invalid value: {found.message}, expected {expected}"
  | size n expected => s!"invalid length {n}, expected {expected}"
  | missing field => s!"missing field `{field}`"
  | duplicate field => s!"duplicate field `{field}`"
  | variant found known => s!"unknown variant `{found}`, expected {oneOf known}"
  | uuid e => "UUID parsing failed: " ++ e.message
  | instant e => e.message
  | numeral e => e.message

end Mismatch

inductive Cause
  | malformed (m : Malformation)
  | mismatched (m : Mismatch)

namespace Cause

def message : Cause → String
  | malformed m => m.message
  | mismatched m => m.message

def isMismatch : Cause → Bool
  | malformed _ => false
  | mismatched _ => true

end Cause

/-- The part of a document in which a fault lies. -/
inductive Part
  | whole
  | member (name : String)
  | item (index : Nat)
  deriving DecidableEq, Repr

structure Fault where
  cause : Cause
  position : Position
  part : Part

namespace Fault

def message (f : Fault) : String :=
  s!"{f.cause.message} at line {f.position.line} column {f.position.column}"

/-- The fault as one of the part `p`. -/
def within (p : Part) (f : Fault) : Fault := { f with part := p }

end Fault

def malformed (m : Malformation) (p : Position) : Fault := ⟨.malformed m, p, .whole⟩

def mismatched (m : Mismatch) (p : Position) : Fault := ⟨.mismatched m, p, .whole⟩

end Json

end Fulfilment
