import Fulfilment.Json.Codec

/-!
# Records

A record has named fields, each with a codec. It is read from an object, in which other members are passed over and
no field may stand twice, or from a list of its fields in order; from a free-form value; or from a filled-in form. It
is written as an object with its fields in order.

* `Record`: a type as its fields. `Record.ofRow_toRow` says that the fields hold all there is.
* `Record.codec`: how a record is read and written.
-/

namespace Fulfilment

namespace Json

/-- What becomes of a field that is left out. -/
inductive Absent (α : Type)
  /-- It must be there. -/
  | refused
  /-- It stands for `a` where an object lacks it. -/
  | named (a : α)
  /-- It stands for `a` also where a list is too short for it. -/
  | always (a : α)

structure Field where
  name : String
  Carrier : Type
  codec : Codec Carrier
  absent : Absent Carrier

namespace Field

def required {α : Type} (name : String) (k : Codec α) : Field := ⟨name, α, k, .refused⟩

/-- A field that may be left out of objects, or be null. -/
def optional {α : Type} (name : String) (k : Codec α) : Field := ⟨name, Option α, k.optional, .named none⟩

end Field

/-- A value for every field. -/
def Row : List Field → Type
  | [] => Unit
  | f :: fs => f.Carrier × Row fs

/-- A value for some of the fields. -/
def Slots : List Field → Type
  | [] => Unit
  | f :: fs => Option f.Carrier × Slots fs

namespace Slots

def empty : (fs : List Field) → Slots fs
  | [] => ()
  | _ :: fs => (none, empty fs)

/-- Puts what `get` has for the field `key` into its slot. Fails with `taken` where that is filled; there is no result
for a name that is no field. -/
def fill {ε σ : Type} (key : String) (taken : ε) (get : (f : Field) → Except ε (f.Carrier × σ)) :
    (fs : List Field) → Slots fs → Option (Except ε (Slots fs × σ))
  | [], _ => none
  | f :: fs, (slot, rest) =>
    if key = f.name then
      match slot with
      | some _ => some (.error taken)
      | none =>
        match get f with
        | .error e => some (.error e)
        | .ok (a, s) => some (.ok ((some a, rest), s))
    else
      match fill key taken get fs rest with
      | none => none
      | some (.error e) => some (.error e)
      | some (.ok (rest', s)) => some (.ok ((slot, rest'), s))

/-- The row of the filled slots, or the first field that must be there and is not. -/
def toRow : (fs : List Field) → Slots fs → Except Mismatch (Row fs)
  | [], _ => .ok ()
  | f :: fs, (slot, rest) =>
    match slot, f.absent with
    | some a, _ => (toRow fs rest).map (a, ·)
    | none, .refused => .error (.missing f.name)
    | none, .named a => (toRow fs rest).map (a, ·)
    | none, .always a => (toRow fs rest).map (a, ·)

theorem exists_of_fill {ε σ : Type} {key : String} {taken : ε} {get : (f : Field) → Except ε (f.Carrier × σ)}
    {fs : List Field} {slots slots' : Slots fs} {s : σ} (h : fill key taken get fs slots = some (.ok (slots', s))) :
    ∃ f a, get f = .ok (a, s) := by
  induction fs with
  | nil => cases h
  | cons f fs ih =>
    obtain ⟨slot, rest⟩ := slots
    simp only [fill] at h
    split at h
    · split at h
      · cases h
      · split at h
        · cases h
        · rename_i a s' hg
          cases h
          exact ⟨f, a, hg⟩
    · split at h
      · cases h
      · cases h
      · rename_i hf
        cases h
        exact ih hf

end Slots

/-! ### Reading -/

/-- What a list of the fields of a record is called. -/
def listTitle (title : String) (fs : List Field) : String := s!"struct {title} with {fs.length} elements"

/-- The value of the member `key`, read by `r`. -/
def readMember {α : Type} (key : String) (r : Reader α) (c : Cursor) : Except Fault (α × Cursor) :=
  match c.colon with
  | .error e => .error e
  | .ok d =>
    match r.read d with
    | .error e => .error (e.within (.member key))
    | .ok x => .ok x

/-- Passes over the value of the member `key`. -/
def skipMember (key : String) (c : Cursor) : Except Fault Cursor :=
  match c.colon with
  | .error e => .error e
  | .ok d =>
    match skipValue d with
    | .error e => .error (e.within (.member key))
    | .ok d' => .ok d'

theorem size_readMember {α : Type} {key : String} {r : Reader α} {c d : Cursor} {a : α}
    (h : readMember key r c = .ok (a, d)) : d.size < c.size := by
  unfold readMember at h
  split at h
  · cases h
  · rename_i hc
    split at h
    · cases h
    · rename_i hr
      cases h
      exact Nat.lt_trans (r.shrinks hr) (Cursor.size_colon hc)

theorem size_skipMember {key : String} {c d : Cursor} (h : skipMember key c = .ok d) : d.size < c.size := by
  unfold skipMember at h
  split at h
  · cases h
  · rename_i hc
    split at h
    · cases h
    · rename_i hr
      cases h
      exact Nat.lt_trans (size_skipValue hr) (Cursor.size_colon hc)

/-- Fills the slots from the members up to the closing brace. -/
def slotsFrom (depth : Nat) (fs : List Field) (slots : Slots fs) (first : Bool) (c : Cursor) :
    Except Fault (Slots fs × Cursor) :=
  match _hk : c.nextKey first with
  | .error e => .error e
  | .ok (.done d) => .ok (slots, d)
  | .ok (.more d) =>
    match _ht : readText d with
    | .error e => .error e
    | .ok (key, d₁) =>
      match _hf : slots.fill key (mismatched (.duplicate key) d₁.behindObject)
          (fun f => readMember key (f.codec.reader depth) d₁) fs with
      | some (.error e) => .error e
      | some (.ok (slots', d₂)) => slotsFrom depth fs slots' false d₂
      | none =>
        match _hs : skipMember key d₁ with
        | .error e => .error e
        | .ok d₂ => slotsFrom depth fs slots false d₂
  termination_by c.size
  decreasing_by
    all_goals
      have h₁ := Cursor.size_nextKey _hk
      have h₂ := size_readText _ht
      simp only [Cursor.Turn.cursor] at h₁
    · obtain ⟨f, a, hf⟩ := Slots.exists_of_fill _hf
      have := size_readMember hf
      omega
    · have := size_skipMember _hs
      omega

theorem size_slotsFrom {depth : Nat} {fs : List Field} {slots slots' : Slots fs} {first : Bool} {c d : Cursor}
    (h : slotsFrom depth fs slots first c = .ok (slots', d)) : d.size < c.size := by
  fun_induction slotsFrom depth fs slots first c with
  | case1 => cases h
  | case2 slots first c d' hk =>
    cases h
    exact Cursor.size_nextKey hk
  | case3 => cases h
  | case4 => cases h
  | case5 slots first c d₀ hk key d₁ ht slots₁ d₂ hf ih =>
    have h₁ := Cursor.size_nextKey hk
    have h₂ := size_readText ht
    obtain ⟨f, a, hf⟩ := Slots.exists_of_fill hf
    have h₃ := size_readMember hf
    have h₄ := ih h
    simp only [Cursor.Turn.cursor] at h₁
    omega
  | case6 => cases h
  | case7 slots first c d₀ hk key d₁ ht hf d₂ hs ih =>
    have h₁ := Cursor.size_nextKey hk
    have h₂ := size_readText ht
    have h₃ := size_skipMember hs
    have h₄ := ih h
    simp only [Cursor.Turn.cursor] at h₁
    omega

/-- Reads the fields `fs` in order, the first of them item `index` of a list, and the closing bracket. -/
def rowFrom (expected : String) (depth : Nat) :
    (fs : List Field) → (index : Nat) → Cursor → Except Fault (Row fs × Cursor)
  | [], _, c =>
    match c.closeList with
    | .error e => .error e
    | .ok d => .ok ((), d)
  | f :: fs, index, c =>
    match c.nextItem (index == 0) with
    | .error e => .error e
    | .ok (.done d) =>
      match f.absent with
      | .always a =>
        match rowFrom expected depth fs (index + 1) c with
        | .error e => .error e
        | .ok (row, d') => .ok ((a, row), d')
      | _ => .error (mismatched (.size index expected) d.position)
    | .ok (.more d) =>
      match (f.codec.reader depth).read d with
      | .error e => .error (e.within (.item index))
      | .ok (a, d') =>
        match rowFrom expected depth fs (index + 1) d' with
        | .error e => .error e
        | .ok (row, d'') => .ok ((a, row), d'')

theorem size_rowFrom {expected : String} {depth : Nat} {fs : List Field} {index : Nat} {c d : Cursor} {row : Row fs}
    (h : rowFrom expected depth fs index c = .ok (row, d)) : d.size < c.size := by
  induction fs generalizing index c with
  | nil =>
    unfold rowFrom at h
    split at h
    · cases h
    · rename_i hc
      cases h
      exact Cursor.size_closeList hc
  | cons f fs ih =>
    unfold rowFrom at h
    split at h
    · cases h
    · split at h
      · split at h
        · cases h
        · rename_i hr
          cases h
          exact ih hr
      · cases h
    · rename_i ht
      split at h
      · cases h
      · rename_i hf
        split at h
        · cases h
        · rename_i hr
          cases h
          have h₁ := Cursor.size_nextItem ht
          have h₂ := (f.codec.reader depth).shrinks hf
          have h₃ := ih hr
          simp only [Cursor.Turn.cursor] at h₁
          omega

/-- Reads a row of the fields `fs` from an object or a list. -/
def readRow (title : String) (fs : List Field) (nested : Option Nat) (c : Cursor) : Except Fault (Row fs × Cursor) :=
  let c := c.skipBlanks
  match c.rest with
  | [] => .error (malformed .endInValue c.position)
  | b :: r =>
    let after : Cursor := ⟨r, c.position.after b⟩
    if b = 91 then
      match nested with
      | none => .error (malformed .tooDeep c.beyond)
      | some depth => rowFrom (listTitle title fs) depth fs 0 after
    else if b = 123 then
      match nested with
      | none => .error (malformed .tooDeep c.beyond)
      | some depth =>
        match slotsFrom depth fs (Slots.empty fs) true after with
        | .error e => .error e
        | .ok (slots, d) =>
          match slots.toRow fs with
          | .error m => .error (mismatched m d.position)
          | .ok row => .ok (row, d)
    else .error (unexpected ("struct " ++ title) c)

theorem size_readRow {title : String} {fs : List Field} {nested : Option Nat} {c d : Cursor} {row : Row fs}
    (h : readRow title fs nested c = .ok (row, d)) : d.size < c.size := by
  have hc := Cursor.size_skipBlanks c
  unfold readRow at h
  dsimp only at h
  split at h
  · cases h
  · rename_i b r hr
    have hs := Cursor.size_of_rest hr
    have hd : (Cursor.mk r (c.skipBlanks.position.after b)).size < c.size := by
      simp only [Cursor.size] at *
      omega
    split at h
    · split at h
      · cases h
      · exact Nat.lt_trans (size_rowFrom h) hd
    · split at h
      · split at h
        · cases h
        · split at h
          · cases h
          · rename_i hf
            split at h <;> cases h
            exact Nat.lt_trans (size_slotsFrom hf) hd
      · cases h

/-- Fills the slots from members already read. -/
def slotsOfMembers (fs : List Field) (slots : Slots fs) : List (String × Value) → Except Mismatch (Slots fs)
  | [] => .ok slots
  | (key, v) :: rest =>
    match slots.fill key (Mismatch.duplicate key) (fun f => (f.codec.ofValue v).map (·, ())) fs with
    | some (.error e) => .error e
    | some (.ok (slots', _)) => slotsOfMembers fs slots' rest
    | none => slotsOfMembers fs slots rest

/-- Fills the slots from the entries of a form. -/
def slotsOfForm (fs : List Field) (slots : Slots fs) : List (String × String) → Except Mismatch (Slots fs)
  | [] => .ok slots
  | (key, s) :: rest =>
    match slots.fill key (Mismatch.duplicate key) (fun f => (f.codec.ofForm s).map (·, ())) fs with
    | some (.error e) => .error e
    | some (.ok (slots', _)) => slotsOfForm fs slots' rest
    | none => slotsOfForm fs slots rest

/-- The fields `fs` in order, the first of them item `index`, and the items left over. -/
def rowOfItems (expected : String) :
    (fs : List Field) → (index : Nat) → List Value → Except Mismatch (Row fs × List Value)
  | [], _, vs => .ok ((), vs)
  | f :: fs, index, v :: vs => do
    let a ← f.codec.ofValue v
    let (row, rest) ← rowOfItems expected fs (index + 1) vs
    return ((a, row), rest)
  | f :: fs, index, [] =>
    match f.absent with
    | .always a => do
      let (row, rest) ← rowOfItems expected fs (index + 1) []
      return ((a, row), rest)
    | _ => .error (.size index expected)

def rowOfValue (title : String) (fs : List Field) : Value → Except Mismatch (Row fs)
  | .object ms => do (← slotsOfMembers fs (Slots.empty fs) ms).toRow fs
  | .list vs => do
    let (row, rest) ← rowOfItems (listTitle title fs) fs 0 vs
    if rest.isEmpty then return row else .error (.size vs.length "fewer elements in array")
  | v => .error (.kind v.found ("struct " ++ title))

/-! ### Writing -/

def printRow : (fs : List Field) → Row fs → List (String × List Char)
  | [], _ => []
  | f :: fs, (a, row) => (f.name, f.codec.print a) :: printRow fs row

def membersOfRow : (fs : List Field) → Row fs → List (String × Value)
  | [], _ => []
  | f :: fs, (a, row) => Value.insert f.name (f.codec.toValue a) (membersOfRow fs row)

/-- A type as its fields. -/
class Record (α : Type) where
  title : String
  fields : List Field
  ofRow : Row fields → α
  toRow : α → Row fields
  ofRow_toRow : ∀ a, ofRow (toRow a) = a := by intro a; rfl

namespace Record

variable {α : Type} [Record α]

def reader (α : Type) [Record α] (nested : Option Nat) : Reader α where
  read c :=
    match readRow (title α) (fields α) nested c with
    | .error e => .error e
    | .ok (row, d) => .ok (ofRow row, d)
  shrinks h := by
    split at h
    · cases h
    · rename_i hr
      cases h
      exact size_readRow hr

def ofValue (v : Value) : Except Mismatch α := (rowOfValue (title α) (fields α) v).map ofRow

/-- Reads a record from the entries of a form. -/
def ofForm (entries : List (String × String)) : Except Mismatch α := do
  let slots ← slotsOfForm (fields α) (Slots.empty (fields α)) entries
  (slots.toRow (fields α)).map ofRow

def print (a : α) : List Char := printMembers (printRow (fields α) (toRow a))

def toValue (a : α) : Value := .object (membersOfRow (fields α) (toRow a))

def codec (α : Type) [Record α] : Codec α where
  reader
    | 0 => reader α none
    | depth + 1 => reader α (some depth)
  ofValue := ofValue
  ofForm s := .error (.kind (.text s) ("struct " ++ title α))
  print := print
  toValue := toValue

/-- Reads a text that holds one record. -/
def parse (text : Bytes) : Except Fault α := (codec α).parse text

def render (a : α) : String := (codec α).render a

/-- The text of a record as bytes. -/
def encode (a : α) : Bytes := Utf8.encode (print a)

end Record

end Json

end Fulfilment
