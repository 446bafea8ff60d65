import Fulfilment.Json.Printer
import Fulfilment.Json.Reader

/-!
# Codecs

A codec says how one kind of data is read from documents, taken from free-form values, filled in on forms, and
written. The codecs here are those of text, identifiers, integers, instants, free-form values, and of what may be
null.

* `Codec.converted`: data with a textual form of its own.
* `Codec.integer`: the integers of a range.
-/

namespace Fulfilment

namespace Json

namespace Value

/-- The kind of a value. -/
def found : Value → Found
  | null => .null
  | bool b => .bool b
  | int n => .int n
  | float x => .float x
  | text s => .text s
  | list _ => .list
  | object _ => .object

end Value

structure Codec (α : Type) where
  /-- Reads from a document, nested at most so deep. -/
  reader : Nat → Reader α
  ofValue : Value → Except Mismatch α
  ofForm : String → Except Mismatch α
  print : α → List Char
  toValue : α → Value

/-! ### Text with a meaning -/

def readConverted {α : Type} (expected : String) (convert : String → Except Mismatch α) (c : Cursor) :
    Except Fault (α × Cursor) :=
  let c := c.skipBlanks
  match c.rest with
  | [] => .error (malformed .endInValue c.position)
  | b :: r =>
    if b = 34 then
      match readText ⟨r, c.position.after b⟩ with
      | .error e => .error e
      | .ok (s, d) =>
        match convert s with
        | .error m => .error (mismatched m d.position)
        | .ok a => .ok (a, d)
    else .error (unexpected expected c)

theorem size_readConverted {α : Type} {expected : String} {convert : String → Except Mismatch α} {c d : Cursor}
    {a : α} (h : readConverted expected convert c = .ok (a, d)) : d.size < c.size := by
  have hc := Cursor.size_skipBlanks c
  unfold readConverted at h
  dsimp only at h
  split at h
  · cases h
  · rename_i b r hr
    have hs := Cursor.size_of_rest hr
    split at h
    · split at h
      · cases h
      · rename_i ht
        split at h <;> cases h
        have := size_readText ht
        simp only [Cursor.size] at *
        omega
    · cases h

/-! ### Integers -/

def integerOf {α : Type} (lo hi : Int) (expected : String) (ofInt : Int → α) : Number → Except Mismatch α
  | .int n => if lo ≤ n ∧ n ≤ hi then .ok (ofInt n) else .error (.range (.int n) expected)
  | .float x => .error (.kind (.float x) expected)

/-- The number at the cursor, if one stands there. -/
def numberAt? (c : Cursor) : Option (Except Fault (Number × Cursor)) :=
  match c.rest with
  | [] => none
  | b :: r =>
    match Lead.ofByte b with
    | .minus => some (readNumber true ⟨r, c.position.after b⟩)
    | .digit => some (readNumber false c)
    | _ => none

theorem size_numberAt? {c d : Cursor} {n : Number} (h : numberAt? c = some (.ok (n, d))) : d.size < c.size := by
  unfold numberAt? at h
  split at h
  · cases h
  · rename_i b r hr
    have hs := Cursor.size_of_rest hr
    split at h
    · have := size_readNumber (Option.some.inj h)
      simp only [Cursor.size] at *
      omega
    · exact size_readNumber (Option.some.inj h)
    · cases h

def readInteger {α : Type} (lo hi : Int) (expected : String) (ofInt : Int → α) (c : Cursor) :
    Except Fault (α × Cursor) :=
  let c := c.skipBlanks
  if c.rest = [] then .error (malformed .endInValue c.position)
  else
    match numberAt? c with
    | none => .error (unexpected expected c)
    | some (.error e) => .error e
    | some (.ok (n, d)) =>
      match integerOf lo hi expected ofInt n with
      | .error m => .error (mismatched m d.position)
      | .ok a => .ok (a, d)

theorem size_readInteger {α : Type} {lo hi : Int} {expected : String} {ofInt : Int → α} {c d : Cursor} {a : α}
    (h : readInteger lo hi expected ofInt c = .ok (a, d)) : d.size < c.size := by
  have hc := Cursor.size_skipBlanks c
  unfold readInteger at h
  dsimp only at h
  split at h
  · cases h
  · split at h
    · cases h
    · cases h
    · rename_i hn
      split at h <;> cases h
      exact Nat.lt_of_lt_of_le (size_numberAt? hn) hc

/-! ### What may be null -/

def readNullable {α β : Type} (r : Reader α) (null : β) (some : α → β) (c : Cursor) : Except Fault (β × Cursor) :=
  let c := c.skipBlanks
  match c.rest with
  | 110 :: rest => readWord null nullTail ⟨rest, c.position.after 110⟩
  | _ =>
    match r.read c with
    | .error e => .error e
    | .ok (a, d) => .ok (some a, d)

theorem size_readNullable {α β : Type} {r : Reader α} {null : β} {some : α → β} {c d : Cursor} {b : β}
    (h : readNullable r null some c = .ok (b, d)) : d.size < c.size := by
  have hc := Cursor.size_skipBlanks c
  unfold readNullable at h
  dsimp only at h
  split at h
  · rename_i hr
    have hs := Cursor.size_of_rest hr
    have := size_readWord h
    simp only [Cursor.size] at *
    omega
  · split at h
    · cases h
    · rename_i hr
      cases h
      exact Nat.lt_of_lt_of_le (r.shrinks hr) hc

/-! ### Lists -/

def readList {α : Type} (nested : Option (Reader α)) (c : Cursor) : Except Fault (List α × Cursor) :=
  let c := c.skipBlanks
  match c.rest with
  | [] => .error (malformed .endInValue c.position)
  | b :: r =>
    if b = 91 then
      match nested with
      | none => .error (malformed .tooDeep c.beyond)
      | some reader => reader.items ⟨r, c.position.after b⟩
    else .error (unexpected "a sequence" c)

theorem size_readList {α : Type} {nested : Option (Reader α)} {c d : Cursor} {as : List α}
    (h : readList nested c = .ok (as, d)) : d.size < c.size := by
  have hc := Cursor.size_skipBlanks c
  unfold readList at h
  dsimp only at h
  split at h
  · cases h
  · rename_i b r hr
    have hs := Cursor.size_of_rest hr
    split at h
    · split at h
      · cases h
      · have := Reader.size_itemsFrom _ h
        simp only [Cursor.size] at *
        omega
    · cases h

namespace Codec

/-- Data with the textual form `show`, read back by `convert`. -/
def converted {α : Type} (expected : String) (convert : String → Except Mismatch α) (write : α → String) :
    Codec α where
  reader _ := ⟨readConverted expected convert, size_readConverted⟩
  ofValue
    | .text s => convert s
    | v => .error (.kind v.found expected)
  ofForm := convert
  print a := printText (write a)
  toValue a := .text (write a)

def text : Codec String := converted "a string" .ok id

def uuid : Codec Uuid :=
  converted "a formatted UUID string" (fun s => (Uuid.parse s).mapError .uuid) Uuid.render

def instant : Codec Instant :=
  converted "an RFC 3339 formatted date and time string" (fun s => (Timestamp.parse s).mapError .instant)
    Timestamp.render

/-- The integers from `lo` to `hi`. -/
def integer {α : Type} (lo hi : Int) (expected : String) (ofInt : Int → α) (toInt : α → Int) : Codec α where
  reader _ := ⟨readInteger lo hi expected ofInt, size_readInteger⟩
  ofValue
    | .int n => integerOf lo hi expected ofInt (.int n)
    | v => .error (.kind v.found expected)
  ofForm s := ((readInt lo hi s.toList).mapError .numeral).map ofInt
  print a := printInt (toInt a)
  toValue a := .int (toInt a)

def int32 : Codec Int32 := integer min32 max32 "i32" Int32.ofInt Int32.toInt

def int64 : Codec Int64 := integer min64 max64 "i64" Int64.ofInt Int64.toInt

/-- Any value. -/
def free : Codec Value where
  reader := Value.reader
  ofValue := .ok
  ofForm s := .ok (.text s)
  print := Value.print
  toValue v := v

/-- What may be null. -/
def optional {α : Type} (k : Codec α) : Codec (Option α) where
  reader depth := ⟨readNullable (k.reader depth) none some, size_readNullable⟩
  ofValue
    | .null => .ok none
    | v => (k.ofValue v).map some
  ofForm s := (k.ofForm s).map some
  print
    | none => "null".toList
    | some a => k.print a
  toValue
    | none => .null
    | some a => k.toValue a

/-- What stands for `a` when null. -/
def orElse {α : Type} (k : Codec α) (a : α) : Codec α where
  reader depth := ⟨readNullable (k.reader depth) a id, size_readNullable⟩
  ofValue
    | .null => .ok a
    | v => k.ofValue v
  ofForm := k.ofForm
  print := k.print
  toValue := k.toValue

def list {α : Type} (k : Codec α) : Codec (List α) where
  reader
    | 0 => ⟨readList none, size_readList⟩
    | depth + 1 => ⟨readList (some (k.reader depth)), size_readList⟩
  ofValue
    | .list vs => vs.mapM k.ofValue
    | v => .error (.kind v.found "a sequence")
  ofForm s := .error (.kind (.text s) "a sequence")
  print as := printList (as.map k.print)
  toValue as := .list (as.map k.toValue)

/-- Reads a text that holds one value of this kind. -/
def parse {α : Type} (k : Codec α) (text : Bytes) : Except Fault α := readAll (k.reader depthLimit) text

def render {α : Type} (k : Codec α) (a : α) : String := String.ofList (k.print a)

end Codec

end Json

end Fulfilment
