import Fulfilment.Csv.Reader

/-!
# Writing tables

A field is put between quotes where it holds a comma, a quote or a line break, and a row of one empty field is written
as two quotes, so that it is not taken for an empty line.
-/

namespace Fulfilment

namespace Csv

def needsQuotes (field : Bytes) : Bool := field.any fun b => b == comma || b == quote || isBreak b

/-- A field with its quotes doubled. -/
def doubled (field : Bytes) : Bytes := field.flatMap fun b => if b = quote then [quote, quote] else [b]

def writeField (field : Bytes) : Bytes :=
  if needsQuotes field then quote :: doubled field ++ [quote] else field

def writeRow (row : Row) : Bytes :=
  (if row = [[]] ∨ row = [] then [quote, quote] else List.intercalate [comma] (row.map writeField)) ++ [10]

def write (rows : List Row) : Bytes := rows.flatMap writeRow

end Csv

end Fulfilment
