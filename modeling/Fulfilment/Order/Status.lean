import Fulfilment.Json.Codec

/-!
# The state of an order

An order waits on hold until stock is set aside for it, and is new from then on. In documents the state is a text, or
an object whose only member is named for the state and is null.
-/

namespace Fulfilment

inductive OrderStatus
  | onHold
  | newOrder
  deriving DecidableEq, Repr

namespace OrderStatus

open Json

def name : OrderStatus → String
  | onHold => "on_hold"
  | newOrder => "new_order"

def ofName? (s : String) : Option OrderStatus :=
  if s = "on_hold" then some onHold else if s = "new_order" then some newOrder else none

theorem ofName?_name (s : OrderStatus) : ofName? s.name = some s := by cases s <;> rfl

def ofName (s : String) : Except Mismatch OrderStatus :=
  match ofName? s with
  | some status => .ok status
  | none => .error (.variant s [name onHold, name newOrder])

/-- Reads the null of the member. -/
def readNull (c : Cursor) : Except Fault (Unit × Cursor) :=
  let c := c.skipBlanks
  match c.rest with
  | [] => .error (malformed .endInValue c.position)
  | b :: r =>
    if b = 110 then readWord () nullTail ⟨r, c.position.after b⟩ else .error (unexpected "unit" c)

theorem size_readNull {c d : Cursor} {u : Unit} (h : readNull c = .ok (u, d)) : d.size < c.size := by
  have hc := Cursor.size_skipBlanks c
  unfold readNull at h
  dsimp only at h
  split at h
  · cases h
  · rename_i b r hr
    have hs := Cursor.size_of_rest hr
    split at h
    · have := size_readWord h
      simp only [Cursor.size] at *
      omega
    · cases h

/-- Takes the brace behind the only member. -/
def closeMember (c : Cursor) : Except Fault Cursor :=
  let c := c.skipBlanks
  match c.rest with
  | [] => .error (malformed .endInObject c.position)
  | b :: r => if b = 125 then .ok ⟨r, c.position.after b⟩ else .error (malformed .noValue c.position)

theorem size_closeMember {c d : Cursor} (h : closeMember c = .ok d) : d.size < c.size := by
  have hc := Cursor.size_skipBlanks c
  unfold closeMember at h
  dsimp only at h
  split at h
  · cases h
  · rename_i b r hr
    have hs := Cursor.size_of_rest hr
    split at h
    · cases h
      simp only [Cursor.size] at *
      omega
    · cases h

/-- Reads the state as the only member of an object. -/
def readMember (c : Cursor) : Except Fault (OrderStatus × Cursor) :=
  match readConverted "variant identifier" ofName c with
  | .error e => .error e
  | .ok (status, c₁) =>
    match c₁.colon with
    | .error e => .error e
    | .ok c₂ =>
      match readNull c₂ with
      | .error e => .error e
      | .ok (_, c₃) =>
        match closeMember c₃ with
        | .error e => .error e
        | .ok c₄ => .ok (status, c₄)

theorem size_readMember {c d : Cursor} {status : OrderStatus} (h : readMember c = .ok (status, d)) :
    d.size < c.size := by
  unfold readMember at h
  split at h
  · cases h
  · rename_i h₁
    split at h
    · cases h
    · rename_i h₂
      split at h
      · cases h
      · rename_i h₃
        split at h
        · cases h
        · rename_i h₄
          cases h
          have := size_readConverted h₁
          have := Cursor.size_colon h₂
          have := size_readNull h₃
          have := size_closeMember h₄
          omega

def read (nested : Bool) (c : Cursor) : Except Fault (OrderStatus × Cursor) :=
  let c := c.skipBlanks
  match c.rest with
  | [] => .error (malformed .endInValue c.position)
  | b :: r =>
    if b = 34 then readConverted "variant identifier" ofName c
    else if b = 123 then
      if nested then readMember ⟨r, c.position.after b⟩ else .error (malformed .tooDeep c.beyond)
    else .error (malformed .noValue c.beyond)

theorem size_read {nested : Bool} {c d : Cursor} {status : OrderStatus} (h : read nested c = .ok (status, d)) :
    d.size < c.size := by
  have hc := Cursor.size_skipBlanks c
  unfold read at h
  dsimp only at h
  split at h
  · cases h
  · rename_i b r hr
    have hs := Cursor.size_of_rest hr
    split at h
    · exact Nat.lt_of_lt_of_le (size_readConverted h) hc
    · split at h
      · split at h
        · have := size_readMember h
          simp only [Cursor.size] at *
          omega
        · cases h
      · cases h

def ofValue : Value → Except Mismatch OrderStatus
  | .text s => ofName s
  | .object [(key, v)] => do
    let status ← ofName key
    match v with
    | .null => .ok status
    | v => .error (.kind v.found "unit")
  | .object _ => .error (.range .object "map with a single key")
  | v => .error (.kind v.found "string or map")

def codec : Codec OrderStatus where
  reader depth := ⟨read (depth != 0), size_read⟩
  ofValue := ofValue
  ofForm := ofName
  print s := printText s.name
  toValue s := .text s.name

end OrderStatus

end Fulfilment
