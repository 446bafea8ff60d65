import Fulfilment.Text.Utf8

/-!
# Reading tables

Rows of fields: a comma ends a field and a carriage return or line feed ends a row, except between quotes, where two
quotes stand for one. A quote counts only at the start of a field. Lines without anything are no rows, and what
follows a closing quote belongs to the field. Fields are bytes, and rows need not be of one length.

* `Csv.act`: what a byte means in each state.
* `Csv.read`: all rows of a text.
-/

namespace Fulfilment

/-- The fields of one line. -/
abbrev Row := List Bytes

namespace Csv

inductive State
  | rowStart
  | fieldStart
  | plain
  | quoted
  /-- Behind a quote between quotes. -/
  | quoteSeen
  deriving DecidableEq, Repr

inductive Action
  | skip
  /-- The byte is a mark and leads to a state. -/
  | mark (next : State)
  /-- The byte belongs to the field. -/
  | put (next : State)
  | endField
  | endRow
  deriving DecidableEq, Repr

def comma : UInt8 := 44

def quote : UInt8 := 34

def isBreak (b : UInt8) : Bool := b == 10 || b == 13

/-- What a byte means at the start of a field. -/
def opening (b : UInt8) : Action :=
  if b = quote then .mark .quoted
  else if b = comma then .endField
  else if isBreak b then .endRow
  else .put .plain

/-- What a byte means outside quotes. -/
def outside (b : UInt8) : Action :=
  if b = comma then .endField else if isBreak b then .endRow else .put .plain

def act : State → UInt8 → Action
  | .rowStart, b => if isBreak b then .skip else opening b
  | .fieldStart, b => opening b
  | .plain, b => outside b
  | .quoted, b => if b = quote then .mark .quoteSeen else .put .quoted
  | .quoteSeen, b => if b = quote then .put .quoted else outside b

/-- The rows of the rest of a text. `field` holds the bytes of the field so far, `fields` the fields before it, both
in reverse. -/
def rowsFrom (state : State) (field : Bytes) (fields : List Bytes) : Bytes → List Row
  | [] => if state = .rowStart then [] else [(field.reverse :: fields).reverse]
  | b :: rest =>
    match act state b with
    | .skip => rowsFrom state field fields rest
    | .mark next => rowsFrom next field fields rest
    | .put next => rowsFrom next (b :: field) fields rest
    | .endField => rowsFrom .fieldStart [] (field.reverse :: fields) rest
    | .endRow => (field.reverse :: fields).reverse :: rowsFrom .rowStart [] [] rest

/-- The text without a byte order mark at its start. -/
def unmarked : Bytes → Bytes
  | 0xEF :: 0xBB :: 0xBF :: rest => rest
  | text => text

/-- All rows of a text. -/
def read (text : Bytes) : List Row := rowsFrom .rowStart [] [] (unmarked text)

/-- The header and the rows below it; a text without rows has an empty header. -/
def table (text : Bytes) : Row × List Row :=
  match read text with
  | [] => ([], [])
  | header :: rows => (header, rows)

end Csv

end Fulfilment
