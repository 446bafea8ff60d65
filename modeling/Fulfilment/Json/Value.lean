/-!
# Free-form values

The values that data without a fixed shape may hold. The members of an object are kept in increasing order of their
names, one for each name.

* `get?_insert_self`, `get?_insert_ne`: what writing a member does to looking it up.
-/

namespace Fulfilment

namespace Json

inductive Value
  | null
  | bool (b : Bool)
  | int (n : Int)
  | float (x : Float)
  | text (s : String)
  | list (items : List Value)
  | object (members : List (String × Value))
  deriving Repr, Inhabited, BEq

namespace Value

/-- Writes the member `k`, in place of the one of that name. -/
def insert (k : String) (v : Value) : List (String × Value) → List (String × Value)
  | [] => [(k, v)]
  | (k', v') :: rest =>
    if k = k' then (k, v) :: rest
    else if k < k' then (k, v) :: (k', v') :: rest
    else (k', v') :: insert k v rest

def lookup (k : String) : List (String × Value) → Option Value
  | [] => none
  | (k', v) :: rest => if k = k' then some v else lookup k rest

/-- The member of an object. -/
def get? (v : Value) (k : String) : Option Value :=
  match v with
  | object members => lookup k members
  | _ => none

def text? : Value → Option String
  | text s => some s
  | _ => none

theorem lookup_insert_self (k : String) (v : Value) (ms : List (String × Value)) :
    lookup k (insert k v ms) = some v := by
  induction ms with
  | nil => simp [insert, lookup]
  | cons p rest ih =>
    obtain ⟨k', v'⟩ := p
    unfold insert
    split
    · simp [lookup]
    · split
      · simp [lookup]
      · rename_i h _
        simp [lookup, h, ih]

theorem lookup_insert_ne {j k : String} (h : j ≠ k) (v : Value) (ms : List (String × Value)) :
    lookup j (insert k v ms) = lookup j ms := by
  induction ms with
  | nil => simp [insert, lookup, h]
  | cons p rest ih =>
    obtain ⟨k', v'⟩ := p
    unfold insert
    split
    · rename_i hk
      subst hk
      simp [lookup, h]
    · split
      · simp [lookup, h]
      · simp [lookup, ih]

theorem get?_insert_self (k : String) (v : Value) (ms : List (String × Value)) :
    (object (insert k v ms)).get? k = some v :=
  lookup_insert_self k v ms

theorem get?_insert_ne {j k : String} (h : j ≠ k) (v : Value) (ms : List (String × Value)) :
    (object (insert k v ms)).get? j = (object ms).get? j :=
  lookup_insert_ne h v ms

end Value

end Json

end Fulfilment
