/-!
# Identifiers

Identifiers of 32 hexadecimal digits, written in five groups with hyphens between them. They are read in that form,
without hyphens, in braces, or behind `urn:uuid:`, in either case.

* `Uuid.parse_render`: what is written is read back.
-/

namespace Fulfilment

/-- Thirty-two hexadecimal digits. -/
structure Uuid where
  digits : List (Fin 16)
  size : digits.length = 32
  deriving DecidableEq

namespace Uuid

inductive ParseError
  | badCharacter (c : Char) (index : Nat)
  | badLength (found : Nat)
  | badGroupCount (found : Nat)
  | badGroupLength (group expected found : Nat)
  deriving DecidableEq, Repr

namespace ParseError

def message : ParseError → String
  | badCharacter c i => s!"invalid character: found `{c}` at {i}"
  | badLength n => s!"invalid length: found {n}"
  | badGroupCount n => s!"invalid group count: expected 5, found {n}"
  | badGroupLength g e n => s!"invalid group length in group {g}: expected {e}, found {n}"

end ParseError

def hexValue? (c : Char) : Option (Fin 16) :=
  let n := c.toNat
  if 48 ≤ n ∧ n ≤ 57 then some (Fin.ofNat 16 (n - 48))
  else if 97 ≤ n ∧ n ≤ 102 then some (Fin.ofNat 16 (n - 87))
  else if 65 ≤ n ∧ n ≤ 70 then some (Fin.ofNat 16 (n - 55))
  else none

def hexChar (d : Fin 16) : Char :=
  if d.val < 10 then Char.ofNat (48 + d.val) else Char.ofNat (87 + d.val)

/-! ### Writing -/

def group (u : Uuid) (start count : Nat) : List Char := ((u.digits.drop start).take count).map hexChar

def print (u : Uuid) : List Char :=
  u.group 0 8 ++ '-' :: u.group 8 4 ++ '-' :: u.group 12 4 ++ '-' :: u.group 16 4 ++ '-' :: u.group 20 12

def render (u : Uuid) : String := String.ofList u.print

instance : ToString Uuid := ⟨render⟩

/-! ### Reading -/

def ofDigits? (cs : List Char) : Option Uuid :=
  match cs.mapM hexValue? with
  | none => none
  | some ds => if h : ds.length = 32 then some ⟨ds, h⟩ else none

/-- Reads the form with hyphens. -/
def ofGroups? (cs : List Char) : Option Uuid :=
  if cs.length = 36 ∧ cs[8]? = some '-' ∧ cs[13]? = some '-' ∧ cs[18]? = some '-' ∧ cs[23]? = some '-' then
    ofDigits? (cs.take 8 ++ (cs.drop 9).take 4 ++ (cs.drop 14).take 4 ++ (cs.drop 19).take 4 ++ cs.drop 24)
  else none

def urn : List Char := "urn:uuid:".toList

def lower (c : Char) : Char := if 'A' ≤ c ∧ c ≤ 'Z' then Char.ofNat (c.toNat + 32) else c

/-- What stands within braces or behind `urn:uuid:`, with the number of characters before it. -/
def unwrap? (cs : List Char) : Option (List Char × Nat) :=
  if cs.head? = some '\x7b' ∧ cs.getLast? = some '\x7d' ∧ 2 ≤ cs.length then some ((cs.drop 1).dropLast, 1)
  else if (cs.take 9).map lower = urn then some (cs.drop 9, 9)
  else none

def ofChars? (cs : List Char) : Option Uuid :=
  if cs.length = 32 then ofDigits? cs
  else if cs.length = 36 then ofGroups? cs
  else if cs.length = 38 ∨ cs.length = 45 then (unwrap? cs).bind fun r => ofGroups? r.1
  else none

/-! ### What is wrong with a text that is no identifier -/

/-- The first character that is neither a digit nor a hyphen, at its byte. -/
def badCharacter? (index : Nat) : List Char → Option ParseError
  | [] => none
  | c :: cs =>
    if c = '-' ∨ (hexValue? c).isSome then badCharacter? (index + 1) cs else some (.badCharacter c index)

/-- The positions of the hyphens. -/
def hyphens (index : Nat) : List Char → List Nat
  | [] => []
  | c :: cs => if c = '-' then index :: hyphens (index + 1) cs else hyphens (index + 1) cs

/-- The first group that does not start and end where it should. -/
def badGroup (total : Nat) (bounds : List Nat) : ParseError :=
  if bounds[0]? ≠ some 8 then .badGroupLength 0 8 (bounds.getD 0 0)
  else if bounds[1]? ≠ some 13 then .badGroupLength 1 4 (bounds.getD 1 0 - 9)
  else if bounds[2]? ≠ some 18 then .badGroupLength 2 4 (bounds.getD 2 0 - 14)
  else if bounds[3]? ≠ some 23 then .badGroupLength 3 4 (bounds.getD 3 0 - 19)
  else .badGroupLength 4 12 (total - 24)

def diagnose (cs : List Char) : ParseError :=
  let (inner, offset) := (unwrap? cs).getD (cs, 0)
  match badCharacter? offset inner with
  | some e => e
  | none =>
    let bounds := hyphens 0 inner
    if bounds.isEmpty ∧ (unwrap? cs).isNone then .badLength cs.length
    else if bounds.length ≠ 4 then .badGroupCount (bounds.length + 1)
    else badGroup cs.length bounds

def parse (s : String) : Except ParseError Uuid :=
  match ofChars? s.toList with
  | some u => .ok u
  | none => .error (diagnose s.toList)

/-! ### Reading what was written -/

theorem hexValue_hexChar (d : Fin 16) : hexValue? (hexChar d) = some d := by
  revert d
  decide

theorem mapM_hexValue_map_hexChar (ds : List (Fin 16)) : (ds.map hexChar).mapM hexValue? = some ds := by
  induction ds with
  | nil => rfl
  | cons d ds ih => simp [List.mapM_cons, hexValue_hexChar, ih]

theorem ofDigits_map_hexChar (u : Uuid) : ofDigits? (u.digits.map hexChar) = some u := by
  unfold ofDigits?
  rw [mapM_hexValue_map_hexChar]
  simp [u.size]

theorem length_group (u : Uuid) {start count : Nat} (h : start + count ≤ 32) :
    (u.group start count).length = count := by
  simp [group, u.size]
  omega

/-- The groups in order are the digits. -/
theorem groups_eq (u : Uuid) :
    u.group 0 8 ++ (u.group 8 4 ++ (u.group 12 4 ++ (u.group 16 4 ++ u.group 20 12))) = u.digits.map hexChar := by
  have split (start count : Nat) :
      u.group start count ++ (u.digits.drop (start + count)).map hexChar = (u.digits.drop start).map hexChar := by
    rw [group, ← List.map_append, ← List.drop_drop, List.take_append_drop]
  have last : u.group 20 12 = (u.digits.drop 20).map hexChar := by
    rw [group, List.take_of_length_le (by simp [u.size])]
  rw [last, split 16 4, split 12 4, split 8 4, split 0 8, List.drop_zero]

/-- Groups of the right lengths with hyphens between them are read as their digits. -/
theorem ofGroups_join {a b c d e : List Char} (ha : a.length = 8) (hb : b.length = 4) (hc : c.length = 4)
    (hd : d.length = 4) (he : e.length = 12) :
    ofGroups? (a ++ '-' :: (b ++ '-' :: (c ++ '-' :: (d ++ '-' :: e)))) =
      ofDigits? (a ++ (b ++ (c ++ (d ++ e)))) := by
  simp [ofGroups?, List.drop_append, List.drop_of_length_le, ha, hb, hc, hd, he]

theorem parse_render (u : Uuid) : parse u.render = .ok u := by
  have ha : (u.group 0 8).length = 8 := length_group u (by omega)
  have hb : (u.group 8 4).length = 4 := length_group u (by omega)
  have hc : (u.group 12 4).length = 4 := length_group u (by omega)
  have hd : (u.group 16 4).length = 4 := length_group u (by omega)
  have he : (u.group 20 12).length = 12 := length_group u (by omega)
  have hp : ofGroups? u.print = some u := by
    unfold print
    rw [← ofDigits_map_hexChar u, ← groups_eq u]
    simpa using ofGroups_join ha hb hc hd he
  have hl : u.print.length = 36 := by
    simp [print, ha, hb, hc, hd, he]
  simp [parse, render, ofChars?, hl, hp]

end Uuid

end Fulfilment
