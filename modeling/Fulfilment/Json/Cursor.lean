import Fulfilment.Json.Fault
import Fulfilment.Text.Utf8

/-!
# Cursors

A cursor is what is left of a text, with its place. `Reader α` reads a value off the front of it, and every reader
that succeeds takes at least one byte, so that reading one value after another ends.

* `Cursor.size_skipBlanks`: skipping blanks never goes back.
* `Reader.items`: what stands between the brackets of a list, each item read by the same reader.
-/

namespace Fulfilment

namespace Json

structure Cursor where
  rest : Bytes
  position : Position

namespace Cursor

def start (text : Bytes) : Cursor := ⟨text, .start⟩

/-- How much is left. -/
def size (c : Cursor) : Nat := c.rest.length

/-- The place after the next byte, or the end. -/
def beyond (c : Cursor) : Position :=
  match c.rest with
  | [] => c.position
  | b :: _ => c.position.after b

def isBlankByte (b : UInt8) : Bool := b == 32 || b == 10 || b == 9 || b == 13

/-- What is left after the blanks at the front of a text at the place `p`. -/
def blanks : Bytes → Position → Cursor
  | [], p => ⟨[], p⟩
  | b :: rest, p => if isBlankByte b then blanks rest (p.after b) else ⟨b :: rest, p⟩

def skipBlanks (c : Cursor) : Cursor := blanks c.rest c.position

theorem size_blanks (bs : Bytes) (p : Position) : (blanks bs p).size ≤ bs.length := by
  induction bs generalizing p with
  | nil => simp [blanks, size]
  | cons b rest ih =>
    unfold blanks
    split
    · exact Nat.le_succ_of_le (ih _)
    · simp [size]

theorem size_skipBlanks (c : Cursor) : c.skipBlanks.size ≤ c.size := size_blanks _ _

theorem size_of_rest {c : Cursor} {b : UInt8} {r : Bytes} (h : c.rest = b :: r) : c.size = r.length + 1 := by
  simp [size, h]

/-- Takes the letters `word` off the front. -/
def word : Bytes → Cursor → Except Fault Cursor
  | [], c => .ok c
  | w :: ws, c =>
    match c.rest with
    | [] => .error (malformed .endInValue c.position)
    | b :: r => if b = w then word ws ⟨r, c.position.after b⟩ else .error (malformed .noWord (c.position.after b))

theorem size_word {ws : Bytes} {c c' : Cursor} (h : word ws c = .ok c') : c'.size ≤ c.size := by
  induction ws generalizing c with
  | nil => simp_all [word]
  | cons w ws ih =>
    unfold word at h
    split at h
    · cases h
    · rename_i b r hr
      split at h
      · have := ih h
        simp_all [size]
        omega
      · cases h

/-- The end of the text, after blanks. -/
def atEnd (c : Cursor) : Except Fault Unit :=
  match c.skipBlanks.rest with
  | [] => .ok ()
  | _ :: _ => .error (malformed .trailingCharacters c.skipBlanks.beyond)

/-- Whether there is another item in a list, or another key in an object, and where the cursor then stands: before
the item, within the quotes of the key, or behind the closing bracket. -/
inductive Turn
  | more (c : Cursor)
  | done (c : Cursor)

namespace Turn

def cursor : Turn → Cursor
  | more c => c
  | done c => c

end Turn

/-- Goes to the next item of a list; `first` where none has been read. -/
def nextItem (first : Bool) (c : Cursor) : Except Fault Turn :=
  let c := c.skipBlanks
  match c.rest with
  | [] => .error (malformed .endInList c.position)
  | b :: r =>
    if b = 93 then .ok (.done ⟨r, c.position.after b⟩)
    else if first then .ok (.more c)
    else if b = 44 then
      let d := (Cursor.mk r (c.position.after b)).skipBlanks
      match d.rest with
      | [] => .error (malformed .endInValue d.position)
      | e :: _ => if e = 93 then .error (malformed .trailingComma d.beyond) else .ok (.more d)
    else .error (malformed .noListComma c.beyond)

/-- Goes to the next key of an object; `first` where none has been read. -/
def nextKey (first : Bool) (c : Cursor) : Except Fault Turn :=
  let c := c.skipBlanks
  match c.rest with
  | [] => .error (malformed .endInObject c.position)
  | b :: r =>
    let after : Cursor := ⟨r, c.position.after b⟩
    if b = 125 then .ok (.done after)
    else if first then
      if b = 34 then .ok (.more after) else .error (malformed .keyNotText c.beyond)
    else if b = 44 then
      let d := after.skipBlanks
      match d.rest with
      | [] => .error (malformed .endInValue d.position)
      | e :: r' =>
        if e = 34 then .ok (.more ⟨r', d.position.after e⟩)
        else if e = 125 then .error (malformed .trailingComma d.beyond)
        else .error (malformed .keyNotText d.beyond)
    else .error (malformed .noObjectComma c.beyond)

/-- Takes the colon behind a key. -/
def colon (c : Cursor) : Except Fault Cursor :=
  let c := c.skipBlanks
  match c.rest with
  | [] => .error (malformed .endInObject c.position)
  | b :: r => if b = 58 then .ok ⟨r, c.position.after b⟩ else .error (malformed .noColon c.beyond)

/-- Takes the bracket that closes a list of which every item has been read. -/
def closeList (c : Cursor) : Except Fault Cursor :=
  let c := c.skipBlanks
  match c.rest with
  | [] => .error (malformed .endInList c.position)
  | b :: r =>
    let after : Cursor := ⟨r, c.position.after b⟩
    if b = 93 then .ok after
    else if b = 44 then
      let d := after.skipBlanks
      if d.rest.head? = some 93 then .error (malformed .trailingComma d.beyond)
      else .error (malformed .trailingCharacters d.beyond)
    else .error (malformed .trailingCharacters c.beyond)

/-- Behind the brace that would close an object here. -/
def behindObject (c : Cursor) : Position :=
  let c := c.skipBlanks
  if c.rest.head? = some 125 then c.beyond else c.position

theorem size_nextItem {first : Bool} {c : Cursor} {t : Turn} (h : nextItem first c = .ok t) :
    t.cursor.size ≤ c.size := by
  have hc := size_skipBlanks c
  unfold nextItem at h
  dsimp only at h
  split at h
  · cases h
  · rename_i b r hr
    have := size_of_rest hr
    split at h
    · cases h
      simp only [Turn.cursor, size] at *
      omega
    · split at h
      · cases h
        exact hc
      · split at h
        · have hd := size_skipBlanks ⟨r, c.skipBlanks.position.after b⟩
          simp only [size] at hd this hc
          split at h
          · cases h
          · split at h
            · cases h
            · cases h
              simp only [Turn.cursor, size]
              omega
        · cases h

theorem size_nextKey {first : Bool} {c : Cursor} {t : Turn} (h : nextKey first c = .ok t) :
    t.cursor.size < c.size := by
  have hc := size_skipBlanks c
  unfold nextKey at h
  dsimp only at h
  split at h
  · cases h
  · rename_i b r hr
    have := size_of_rest hr
    simp only [size] at this hc
    split at h
    · cases h
      simp only [Turn.cursor, size]
      omega
    · split at h
      · split at h
        · cases h
          simp only [Turn.cursor, size]
          omega
        · cases h
      · split at h
        · have hd := size_skipBlanks ⟨r, c.skipBlanks.position.after b⟩
          simp only [size] at hd
          split at h
          · cases h
          · rename_i e r' he
            rw [he] at hd
            simp only [List.length_cons] at hd
            split at h
            · cases h
              simp only [Turn.cursor, size]
              omega
            · split at h <;> cases h
        · cases h

theorem size_colon {c c' : Cursor} (h : colon c = .ok c') : c'.size < c.size := by
  have hc := size_skipBlanks c
  unfold colon at h
  dsimp only at h
  split at h
  · cases h
  · rename_i b r hr
    have := size_of_rest hr
    split at h
    · cases h
      simp only [size] at *
      omega
    · cases h

theorem size_closeList {c c' : Cursor} (h : closeList c = .ok c') : c'.size < c.size := by
  have hc := size_skipBlanks c
  unfold closeList at h
  dsimp only at h
  split at h
  · cases h
  · rename_i b r hr
    have := size_of_rest hr
    split at h
    · cases h
      simp only [size] at *
      omega
    · split at h
      · split at h <;> cases h
      · cases h

end Cursor

/-- Reads a value off the front of a text. -/
structure Reader (α : Type) where
  read : Cursor → Except Fault (α × Cursor)
  shrinks : ∀ {c : Cursor} {a : α} {c' : Cursor}, read c = .ok (a, c') → c'.size < c.size

namespace Reader

/-- The items up to the closing bracket, put onto `acc`, which holds those before in reverse. -/
def itemsFrom {α : Type} (r : Reader α) (acc : List α) (first : Bool) (c : Cursor) :
    Except Fault (List α × Cursor) :=
  match _ht : c.nextItem first with
  | .error e => .error e
  | .ok (.done d) => .ok (acc.reverse, d)
  | .ok (.more d) =>
    match _hr : r.read d with
    | .error e => .error e
    | .ok (a, d') => itemsFrom r (a :: acc) false d'
  termination_by c.size
  decreasing_by
    have h₁ := Cursor.size_nextItem _ht
    have h₂ := r.shrinks _hr
    simp only [Cursor.Turn.cursor] at h₁
    omega

/-- The items of a list of which the opening bracket has been taken. -/
def items {α : Type} (r : Reader α) (c : Cursor) : Except Fault (List α × Cursor) := r.itemsFrom [] true c

theorem size_itemsFrom {α : Type} (r : Reader α) {acc : List α} {first : Bool} {c : Cursor} {as : List α}
    {c' : Cursor} (h : r.itemsFrom acc first c = .ok (as, c')) : c'.size ≤ c.size := by
  fun_induction itemsFrom r acc first c with
  | case1 => cases h
  | case2 acc first c d ht =>
    cases h
    exact Cursor.size_nextItem ht
  | case3 => cases h
  | case4 acc first c d ht a d' hr ih =>
    have h₁ := Cursor.size_nextItem ht
    have h₂ := r.shrinks hr
    have h₃ := ih h
    simp only [Cursor.Turn.cursor] at h₁
    omega

end Reader

/-- Reads a text that holds one value and nothing else. -/
def readAll {α : Type} (r : Reader α) (text : Bytes) : Except Fault α := do
  let (a, c) ← r.read (.start text)
  c.atEnd
  .ok a

end Json

end Fulfilment
