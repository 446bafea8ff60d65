import Fulfilment.Proofs.Json.Value
import Fulfilment.Proofs.Time.Timestamp

/-!
# Fields written and read back

What the codecs of text, identifiers, instants, integers and free-form values write, they read back. Only a free-form
value can be nested too deep for that (`Codec.free_answered`). What is a text or an integer as a free-form value is
also written as that value, and taken from it again (`Codec.Lawful`).
-/

namespace Fulfilment

namespace Json

namespace Value

/-- A text or an integer of a word of 64 bits. -/
inductive Plain : Value → Prop
  | text (s : String) : Plain (.text s)
  | int {n : Int} (low : min64 ≤ n) (high : n ≤ maxWord64) : Plain (.int n)

theorem Plain.kept {v : Value} (h : v.Plain) : v.Kept := by
  cases h with
  | text s => exact .text s
  | int low high => exact .int low high

theorem Plain.depth {v : Value} (h : v.Plain) : v.depth = 0 := by
  cases h <;> rfl

end Value

namespace Codec

variable {α : Type} {a : α} {depth : Nat}

/-- What the codec writes for `a` is read back by it. -/
def Restores (k : Codec α) (depth : Nat) (a : α) : Prop := (k.reader depth).Reads (Utf8.encode (k.print a)) a

/-- What the codec writes for `a` it reads back. As a free-form value `a` is plain, is written as that value, and is
taken from it again. -/
structure Lawful (k : Codec α) (a : α) : Prop where
  restores : ∀ depth, k.Restores depth a
  plain : (k.toValue a).Plain
  printed : k.print a = (k.toValue a).print
  restored : k.ofValue (k.toValue a) = .ok a

theorem converted_restores {expected : String} {convert : String → Except Mismatch α} {write : α → String}
    (h : convert (write a) = .ok a) : (converted expected convert write).Restores depth a := by
  have htext : Utf8.encode ((converted expected convert write).print a) = 34 :: closedText (write a) :=
    encode_printText _
  rw [Restores, htext]
  refine ⟨⟨rfl, by decide⟩, fun rest p _ => ?_⟩
  have hblanks : ∀ t : Bytes, Cursor.skipBlanks ⟨34 :: t, p⟩ = ⟨34 :: t, p⟩ := fun _ => rfl
  change readConverted expected convert ⟨34 :: closedText (write a) ++ rest, p⟩ = _
  unfold readConverted
  rw [List.cons_append, hblanks]
  simp only [if_true, readText_closedText, h]
  rfl

theorem converted_lawful {expected : String} {convert : String → Except Mismatch α} {write : α → String}
    (h : convert (write a) = .ok a) : (converted expected convert write).Lawful a where
  restores _ := converted_restores h
  plain := .text _
  printed := by rw [converted, Value.print]
  restored := h

theorem text_lawful (s : String) : text.Lawful s := converted_lawful rfl

theorem uuid_lawful (u : Uuid) : uuid.Lawful u := converted_lawful (by rw [Uuid.parse_render]; rfl)

theorem instant_lawful (i : Instant) : instant.Lawful i := converted_lawful (by rw [Timestamp.parse_render]; rfl)

theorem integer_restores {lo hi : Int} {expected : String} {ofInt : Int → α} {toInt : α → Int}
    (low : min64 ≤ toInt a) (high : toInt a ≤ maxWord64)
    (h : integerOf lo hi expected ofInt (.int (toInt a)) = .ok a) :
    (integer lo hi expected ofInt toInt).Restores depth a := by
  have hopens := opens_int (toInt a)
  refine ⟨hopens, fun rest p hrest => ?_⟩
  have hnumber := numberAt_int (p := p) low high hrest
  have hne : (Value.int (toInt a)).written ++ rest ≠ [] := by
    intro hnil
    rw [(List.append_eq_nil_iff.1 hnil).1] at hopens
    exact hopens
  change readInteger lo hi expected ofInt ⟨(Value.int (toInt a)).written ++ rest, p⟩ = _
  unfold readInteger
  rw [hopens.skipBlanks]
  dsimp only
  rw [if_neg hne, hnumber]
  simp only [h]
  rfl

theorem integer_lawful {lo hi : Int} {expected : String} {ofInt : Int → α} {toInt : α → Int}
    (hlo : min64 ≤ lo) (hhi : hi ≤ maxWord64) (hrange : lo ≤ toInt a ∧ toInt a ≤ hi) (h : ofInt (toInt a) = a) :
    (integer lo hi expected ofInt toInt).Lawful a := by
  have low : min64 ≤ toInt a := Int.le_trans hlo hrange.1
  have high : toInt a ≤ maxWord64 := Int.le_trans hrange.2 hhi
  have restored : integerOf lo hi expected ofInt (.int (toInt a)) = .ok a := by rw [integerOf, if_pos hrange, h]
  exact ⟨fun _ => integer_restores low high restored, .int low high, by rw [integer, Value.print], restored⟩

theorem int32_lawful (n : Int32) : int32.Lawful n :=
  integer_lawful (by decide) (by decide) ⟨Int32.le_toInt n, Int32.toInt_le n⟩ (Int32.ofInt_toInt n)

theorem int64_lawful (n : Int64) : int64.Lawful n :=
  integer_lawful (by decide) (by decide) ⟨Int64.le_toInt n, Int64.toInt_le n⟩ (Int64.ofInt_toInt n)

/-- A free-form value is read back where its depth allows it, and refused where not. -/
theorem free_answered {v : Value} (h : v.Kept) (depth : Nat) :
    (v.depth ≤ depth → free.Restores depth v) ∧ (depth < v.depth → (free.reader depth).Refuses v.written) :=
  h.answered depth

end Codec

end Json

end Fulfilment
