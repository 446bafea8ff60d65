import Fulfilment.Text.Blank
import Fulfilment.Text.Numeral

/-!
# Digits of numbers

What the digits of a written number are: decimal digits, each with its value, none of them blank, and the first of
them no zero where the number is positive. An integer is written by the digits of its size, below zero behind a minus
sign.
-/

namespace Fulfilment

/-- The value of a character that is a digit. -/
def digitOf (c : Char) : Nat := c.toNat - 48

variable {c : Char} {cs : List Char} {n : Nat}

theorem isDigit_toDigits : ∀ c ∈ Nat.toDigits 10 n, c.isDigit = true :=
  fun _ => Nat.isDigit_of_mem_toDigits (by decide) (by decide)

theorem toNat_of_isDigit (h : c.isDigit = true) : 48 ≤ c.toNat ∧ c.toNat ≤ 57 := by
  simp only [Char.isDigit, Bool.and_eq_true, decide_eq_true_eq] at h
  exact ⟨UInt32.le_iff_toNat_le.1 h.1, UInt32.le_iff_toNat_le.1 h.2⟩

/-- A positive number does not start with a zero. -/
theorem toDigits_of_pos (h : 0 < n) : ∃ c cs, Nat.toDigits 10 n = c :: cs ∧ c ≠ '0' := by
  induction n using Nat.strongRecOn with
  | ind n ih =>
    by_cases hn : n < 10
    · have hchar : ∀ n < 10, 0 < n → n.digitChar ≠ '0' := by decide
      exact ⟨n.digitChar, [], Nat.toDigits_of_lt_base hn, hchar n hn h⟩
    · obtain ⟨c, cs, hcs, hc⟩ := ih (n / 10) (by omega) (by omega)
      refine ⟨c, cs ++ [(n % 10).digitChar], ?_, hc⟩
      rw [Nat.toDigits_of_base_le (by decide) (by omega), hcs]
      rfl

theorem digit_of_isDigit (h : c.isDigit = true) : digit? c = some (digitOf c) := by
  simp only [Char.isDigit, Bool.and_eq_true, decide_eq_true_eq] at h
  exact if_pos h

theorem digit_of_not_isDigit (h : c.isDigit = false) : digit? c = none := by
  simp only [Char.isDigit, Bool.and_eq_false_iff, decide_eq_false_iff_not] at h
  exact if_neg fun hc => h.elim (absurd hc.1) (absurd hc.2)

/-- One more digit after a number makes it ten times as much and adds the digit. -/
theorem ofDigitChars_cons : Nat.ofDigitChars 10 (c :: cs) n = Nat.ofDigitChars 10 cs (n * 10 + digitOf c) := by
  rw [Nat.ofDigitChars_cons, Nat.mul_comm]
  rfl

/-- More digits do not make a number less. -/
theorem le_ofDigitChars : n ≤ Nat.ofDigitChars 10 cs n := by
  rw [Nat.ofDigitChars_eq_ofDigitChars_zero]
  exact Nat.le_trans (Nat.le_mul_of_pos_left _ (Nat.pow_pos (by decide))) (Nat.le_add_right _ _)

theorem isBlank_of_isDigit (h : c.isDigit = true) : isBlank c = false := by
  obtain ⟨hlo, hhi⟩ := toNat_of_isDigit h
  simp [isBlank]
  omega

/-! ### Decimal text -/

theorem toList_toString_natCast (n : Nat) : (toString (n : Int)).toList = Nat.toDigits 10 n := by
  change (Nat.repr n).toList = _
  rw [Nat.repr_eq_ofList_toDigits, String.toList_ofList]

theorem toList_toString_neg (hpos : 0 < n) : (toString (-n : Int)).toList = '-' :: Nat.toDigits 10 n := by
  obtain ⟨m, rfl⟩ := Nat.exists_eq_succ_of_ne_zero (Nat.pos_iff_ne_zero.1 hpos)
  change ("-" ++ Nat.repr (m + 1)).toList = _
  rw [String.toList_append, Nat.repr_eq_ofList_toDigits, String.toList_ofList, String.toList_ofList]
  rfl

end Fulfilment
