import Fulfilment.Http.Form
import Fulfilment.Http.MediaType
import Fulfilment.Text.Quoted

/-!
# Forms with files

A body of parts between boundaries, each with headers and data. Reading stops at the first part that is wanted; a part
that is not wanted is passed over, but must be whole.

* `Multipart.find`: the first part of a name.
-/

namespace Fulfilment

namespace Http

namespace Multipart

inductive Error
  | unreadable
  | incomplete
  | incompleteHeaders
  | badHeaders
  | incompleteData (name : Option String)
  deriving DecidableEq, Repr

namespace Error

def message : Error → String
  | unreadable => "failed to read stream"
  | incomplete => "incomplete multipart stream"
  | incompleteHeaders => "failed to read field headers"
  | badHeaders => "failed to read headers"
  | incompleteData name => "field " ++ quoted (name.getD "<unknown>") ++ " received with incomplete data"

end Error

structure Part where
  name : Option String
  fileName : Option String
  body : Bytes
  deriving DecidableEq, Repr

/-- What stands before and behind the first place of `mark`. -/
def splitOn (mark : Bytes) : Bytes → Option (Bytes × Bytes)
  | [] => if mark = [] then some ([], []) else none
  | b :: rest =>
    if mark.isPrefixOf (b :: rest) then some ([], (b :: rest).drop mark.length)
    else (splitOn mark rest).map fun r => (b :: r.1, r.2)

theorem length_of_splitOn {mark text before after : Bytes} (h : splitOn mark text = some (before, after)) :
    text.length = before.length + mark.length + after.length := by
  induction text generalizing before with
  | nil =>
    unfold splitOn at h
    split at h
    · rename_i hm
      cases h
      simp [hm]
    · cases h
  | cons b rest ih =>
    unfold splitOn at h
    split at h
    · rename_i hp
      cases h
      have := (List.isPrefixOf_iff_prefix.1 hp).length_le
      simp only [List.length_nil, List.length_drop]
      omega
    · cases hs : splitOn mark rest with
      | none => simp [hs] at h
      | some r =>
        simp only [hs, Option.map_some, Option.some.injEq, Prod.mk.injEq] at h
        obtain ⟨rfl, rfl⟩ := h
        have := ih hs
        simp only [List.length_cons]
        omega

def lineEnd : Bytes := [13, 10]

def dashes : Bytes := [45, 45]

/-! ### Headers -/

def isNameByte (b : UInt8) : Bool := isToken (Char.ofNat b.toNat) && b < 0x80

/-- A name and a value with a colon between them. -/
def headerLine? (line : Bytes) : Option (Bytes × Bytes) :=
  let name := line.takeWhile isNameByte
  match line.drop name.length with
  | 58 :: value =>
    let value := value.dropWhile fun b => b == 32 || b == 9
    if name ≠ [] ∧ value.all isValueByte then
      some (name.map fun b => if 65 ≤ b ∧ b ≤ 90 then b + 32 else b,
        (value.reverse.dropWhile fun b => b == 32 || b == 9).reverse)
    else none
  | _ => none

/-- The lines of a text without the carriage returns at their ends. -/
def lines (text : Bytes) : List Bytes :=
  (partsAt 10 text).map fun l => if l.getLast? = some 13 then l.dropLast else l

/-- The headers of a part; no more than 32 are read. -/
def headers? (text : Bytes) : Option (List (Bytes × Bytes)) :=
  let ls := if text.isEmpty then [] else lines text
  if 32 < ls.length then none else ls.mapM headerLine?

/-- The value up to a quote that no backslash stands before, with such quotes unescaped. -/
def quotedAttribute (acc : Bytes) : Bytes → Option Bytes
  | [] => none
  | b :: rest =>
    if b = 34 then
      match acc with
      | 92 :: acc' => quotedAttribute (34 :: acc') rest
      | _ => some acc.reverse
    else quotedAttribute (b :: acc) rest

/-- The value of an attribute whose name and equals sign have been taken. -/
def attributeValue (rest : Bytes) : Option String :=
  match rest with
  | 34 :: inner => (quotedAttribute [] inner).bind Utf8.toString?
  | _ => Utf8.toString? (Form.percentDecode (rest.takeWhile (· != 59)))

/-- Whether an attribute may start behind the byte. -/
def separates (b : UInt8) : Bool := b == 59 || b == 32 || b == 9 || b == 10 || b == 12 || b == 13

/-- The value behind the first place of `mark` that stands at the start or behind a separator. `free` says that the
byte before the text is a separator, or that there is none. -/
def attributeFrom (mark : Bytes) (free : Bool) : (skip : Nat) → Bytes → Option String
  | _, [] => none
  | skip + 1, b :: rest => attributeFrom mark (skip == 0 || separates b) skip rest
  | 0, b :: rest =>
    if mark.isPrefixOf (b :: rest) then
      if free then attributeValue ((b :: rest).drop mark.length)
      else attributeFrom mark (mark.length == 1) (mark.length - 1) rest
    else attributeFrom mark (separates b) 0 rest

def attribute? (name : String) (header : Bytes) : Option String :=
  attributeFrom (Utf8.ofString (name ++ "=")) true 0 header

def disposition? (headers : List (Bytes × Bytes)) : Option Bytes :=
  headers.lookup (Utf8.ofString "content-disposition")

/-! ### Parts -/

/-- What follows a boundary: the rest of its line has been taken, unless it was the last. -/
def afterBoundary (text : Bytes) : Except Error (Option Bytes) :=
  if text.length < 2 then .error .incomplete
  else if text.take 2 = dashes then .ok none
  else
    let text := text.dropWhile fun b => b == 32 || b == 9
    if text.take 2 = lineEnd then .ok (some (text.drop 2)) else .error .incomplete

/-- One part and what follows its boundary. -/
def part (boundary text : Bytes) : Except Error (Part × Bytes) :=
  match splitOn (lineEnd ++ lineEnd) text with
  | none => .error .incompleteHeaders
  | some (head, rest) =>
    match headers? head with
    | none => .error .badHeaders
    | some headers =>
      let name := (disposition? headers).bind (attribute? "name")
      let fileName := (disposition? headers).bind (attribute? "filename")
      match splitOn (lineEnd ++ dashes ++ boundary) rest with
      | none => .error (.incompleteData name)
      | some (body, after) => .ok (⟨name, fileName, body⟩, after)

theorem size_part {boundary text after : Bytes} {p : Part} (h : part boundary text = .ok (p, after)) :
    after.length < text.length := by
  unfold part at h
  split at h
  · cases h
  · rename_i hh
    split at h
    · cases h
    · dsimp only at h
      split at h
      · cases h
      · rename_i hb
        cases h
        have h₁ := length_of_splitOn hh
        have h₂ := length_of_splitOn hb
        simp only [List.length_append, lineEnd, dashes, List.length_cons, List.length_nil] at h₁ h₂
        omega

theorem size_afterBoundary {text rest : Bytes} (h : afterBoundary text = .ok (some rest)) :
    rest.length ≤ text.length := by
  unfold afterBoundary at h
  split at h
  · cases h
  · split at h
    · cases h
    · dsimp only at h
      split at h
      · cases h
        have := (List.dropWhile_sublist (l := text) fun b => b == 32 || b == 9).length_le
        simp only [List.length_drop]
        omega
      · cases h

/-- The first part named `name` behind a boundary. -/
def findFrom (boundary : Bytes) (name : String) (text : Bytes) : Except Error (Option Part) :=
  match _ha : afterBoundary text with
  | .error e => .error e
  | .ok none => .ok none
  | .ok (some rest) =>
    match _hp : part boundary rest with
    | .error e => .error e
    | .ok (p, after) => if p.name = some name then .ok (some p) else findFrom boundary name after
  termination_by text.length
  decreasing_by
    have := size_afterBoundary _ha
    have := size_part _hp
    omega

/-- The first part named `name` of a body. -/
def find (boundary : Bytes) (name : String) (body : Bytes) : Except Error (Option Part) :=
  match splitOn (dashes ++ boundary) body with
  | none => .error .incomplete
  | some (_, rest) => findFrom boundary name rest

end Multipart

end Http

end Fulfilment
