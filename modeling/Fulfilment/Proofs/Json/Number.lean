import Fulfilment.Json.Number
import Fulfilment.Proofs.Json.Text
import Fulfilment.Proofs.Text.Digits

/-!
# Integers written and read back

An integer that fits into a signed or unsigned word of 64 bits is written in digits, and those digits are read as that
integer wherever no digit, point or exponent follows them (`readNumber_digits`, `readNumber_minus`).
-/

namespace Fulfilment

variable {c : Char} {cs : List Char} {n : Nat}

namespace Json

namespace NumberText

variable {mode : Mode} {rest : Bytes} {p : Position}

theorem natural_map_digitOf (cs : List Char) : natural (cs.map digitOf) = Nat.ofDigitChars 10 cs 0 := by
  unfold natural
  rw [List.foldl_map, Nat.ofDigitChars_eq_foldl]
  congr 1
  funext n c
  rw [Nat.mul_comm]
  rfl

theorem digitByte_of_isDigit (h : c.isDigit = true) :
    Utf8.encodeChar c = [Utf8.byte c.toNat] ∧ digitByte? (Utf8.byte c.toNat) = some (digitOf c) := by
  obtain ⟨hlo, hhi⟩ := toNat_of_isDigit h
  have hbyte := Utf8.toNat_byte (n := c.toNat) (by omega)
  refine ⟨Utf8.encodeChar_small (by omega), ?_⟩
  have hrange : 48 ≤ Utf8.byte c.toNat ∧ Utf8.byte c.toNat ≤ 57 := by
    rw [UInt8.le_iff_toNat_le, UInt8.le_iff_toNat_le, hbyte]
    exact ⟨hlo, hhi⟩
  unfold digitByte?
  rw [if_pos hrange, hbyte]
  rfl

/-- No digit stands here. -/
def Undigit (rest : Bytes) : Prop := rest.head?.bind digitByte? = none

theorem digitRun_digits (hcs : ∀ c ∈ cs, c.isDigit = true) (hrest : Undigit rest) :
    digitRun (Utf8.encode cs ++ rest) p = (cs.map digitOf, ⟨rest, p.past (Utf8.encode cs)⟩) := by
  induction cs generalizing p with
  | nil =>
    cases rest with
    | nil => rfl
    | cons b rest =>
      have hb : digitByte? b = none := hrest
      simp [digitRun, hb]
  | cons c cs ih =>
    obtain ⟨hc, hcs⟩ := List.forall_mem_cons.1 hcs
    obtain ⟨hbytes, hdigit⟩ := digitByte_of_isDigit hc
    rw [Utf8.encode_cons, hbytes, List.singleton_append, List.cons_append, digitRun, hdigit]
    dsimp only
    rw [ih hcs]
    rfl

theorem readWhole_digits (n : Nat) (hrest : Undigit rest) :
    readWhole mode ⟨Utf8.encode (Nat.toDigits 10 n) ++ rest, p⟩ =
      .ok ((Nat.toDigits 10 n).map digitOf, ⟨rest, p.past (Utf8.encode (Nat.toDigits 10 n))⟩) := by
  rcases Nat.eq_zero_or_pos n with rfl | hn
  · have hzero : digitByte? 48 = some 0 := by decide
    rw [Nat.toDigits_zero]
    change readWhole mode ⟨48 :: rest, p⟩ = .ok ([0], ⟨rest, p.after 48⟩)
    unfold readWhole
    simp only [hzero]
    rw [hrest]
    rfl
  · obtain ⟨c, cs, hdigits, hc⟩ := toDigits_of_pos hn
    have hall := isDigit_toDigits (n := n)
    rw [hdigits, List.forall_mem_cons] at hall
    obtain ⟨hbytes, hdigit⟩ := digitByte_of_isDigit hall.1
    have hpos : digitOf c ≠ 0 := by
      obtain ⟨hlo, -⟩ := toNat_of_isDigit hall.1
      intro h
      refine hc (Char.toNat_inj.1 ?_)
      unfold digitOf at h
      have : ('0' : Char).toNat = 48 := rfl
      omega
    rw [hdigits, Utf8.encode_cons, hbytes, List.singleton_append, List.cons_append]
    unfold readWhole
    dsimp only
    rw [hdigit]
    split
    · rename_i h
      cases h
    · rename_i h
      exact absurd (Option.some.inj h) hpos
    · rename_i h
      cases h
      rw [digitRun_digits hall.2 hrest]
      rfl

end NumberText

/-! ### What may follow a value -/

/-- The text is at its end, or goes on with a comma, a closing bracket or a blank. -/
def Closes : Bytes → Prop
  | [] => True
  | b :: _ => b = 44 ∨ b = 93 ∨ b = 125 ∨ Cursor.isBlankByte b = true

variable {b : UInt8} {rest : Bytes} {p : Position}

/-- What closes a value does not go on with a number. -/
theorem Closes.ends (h : Closes (b :: rest)) : NumberText.digitByte? b = none ∧ b ≠ 46 ∧ ¬ (b = 101 ∨ b = 69) := by
  simp only [Closes, Cursor.isBlankByte, Bool.or_eq_true, beq_iff_eq] at h
  rcases h with rfl | rfl | rfl | ((rfl | rfl) | rfl) | rfl <;> decide

theorem Closes.undigit (h : Closes rest) : NumberText.Undigit rest := by
  cases rest with
  | nil => rfl
  | cons b rest => exact h.ends.1

namespace NumberText

variable {mode : Mode}

theorem readFraction_closes (h : Closes rest) : readFraction mode ⟨rest, p⟩ = .ok ([], ⟨rest, p⟩) := by
  cases rest with
  | nil => rfl
  | cons b rest => exact if_neg h.ends.2.1

theorem readExponent_closes {zero : Bool} (h : Closes rest) :
    readExponent mode zero ⟨rest, p⟩ = .ok (none, ⟨rest, p⟩) := by
  cases rest with
  | nil => rfl
  | cons b rest => exact if_neg h.ends.2.2

theorem read_digits (n : Nat) (hrest : Closes rest) :
    read .keep ⟨Utf8.encode (Nat.toDigits 10 n) ++ rest, p⟩ =
      .ok (⟨(Nat.toDigits 10 n).map digitOf, [], none⟩, ⟨rest, p.past (Utf8.encode (Nat.toDigits 10 n))⟩) := by
  unfold read
  rw [readWhole_digits n hrest.undigit]
  dsimp only
  rw [readFraction_closes hrest]
  dsimp only
  rw [readExponent_closes hrest]

theorem natural_toDigits (n : Nat) : natural ((Nat.toDigits 10 n).map digitOf) = n := by
  rw [natural_map_digitOf, Nat.ofDigitChars_toDigits (by decide) (by decide)]

end NumberText

/-! ### Integers -/

theorem readNumber_digits (h : (n : Int) ≤ maxWord64) (hrest : Closes rest) :
    readNumber false ⟨Utf8.encode (Nat.toDigits 10 n) ++ rest, p⟩ =
      .ok (.int n, ⟨rest, p.past (Utf8.encode (Nat.toDigits 10 n))⟩) := by
  unfold readNumber
  rw [NumberText.read_digits n hrest]
  simp [NumberText.value?, NumberText.natural_toDigits, h]

/-- Behind a minus sign. -/
theorem readNumber_minus (hpos : 0 < n) (h : (n : Int) ≤ -min64) (hrest : Closes rest) :
    readNumber true ⟨Utf8.encode (Nat.toDigits 10 n) ++ rest, p⟩ =
      .ok (.int (-n), ⟨rest, p.past (Utf8.encode (Nat.toDigits 10 n))⟩) := by
  unfold readNumber
  rw [NumberText.read_digits n hrest]
  simp [NumberText.value?, NumberText.natural_toDigits, h, Nat.pos_iff_ne_zero.1 hpos]

theorem printInt_natCast (n : Nat) : printInt n = Nat.toDigits 10 n := toList_toString_natCast n

theorem printInt_neg (hpos : 0 < n) : printInt (-n) = '-' :: Nat.toDigits 10 n := toList_toString_neg hpos

end Json

end Fulfilment
