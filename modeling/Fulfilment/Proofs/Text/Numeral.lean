import Fulfilment.Proofs.Text.Digits

/-!
# Written integers

An integer is written by one or more decimal digits of ASCII, perhaps behind one sign (`Numeral.Writes`); zeros may
stand in front. The reader reads just that, as long as the integer lies in its range (`readInt_eq_ok_iff`): it checks
the range after every digit, and a number never gets nearer to zero by more digits.
-/

namespace Fulfilment

namespace Numeral

/-- One or more characters, all of them decimal digits. -/
structure Digits (cs : List Char) : Prop where
  ne_nil : cs ≠ []
  isDigit : ∀ c ∈ cs, c.isDigit = true

/-- The number that digits write. -/
def value (cs : List Char) : Nat := Nat.ofDigitChars 10 cs 0

/-- The text writes the integer: digits, perhaps behind one sign. -/
inductive Writes : List Char → Int → Prop
  | unsigned {cs : List Char} (digits : Digits cs) : Writes cs (value cs)
  | plus {cs : List Char} (digits : Digits cs) : Writes ('+' :: cs) (value cs)
  | minus {cs : List Char} (digits : Digits cs) : Writes ('-' :: cs) (-value cs)

variable {cs : List Char} {c : Char} {n m lo hi : Int}

theorem Digits.head (h : Digits (c :: cs)) : c.isDigit = true := h.isDigit c List.mem_cons_self

/-! ### What a text writes -/

theorem not_writes_nil : ¬ Writes [] n := by
  intro h
  cases h with
  | unsigned digits => exact digits.ne_nil rfl

theorem writes_plus_iff : Writes ('+' :: cs) n ↔ Digits cs ∧ n = value cs := by
  constructor
  · intro h
    cases h with
    | unsigned digits => exact absurd digits.head (by decide)
    | plus digits => exact ⟨digits, rfl⟩
  · rintro ⟨digits, rfl⟩
    exact .plus digits

theorem writes_minus_iff : Writes ('-' :: cs) n ↔ Digits cs ∧ n = -value cs := by
  constructor
  · intro h
    cases h with
    | unsigned digits => exact absurd digits.head (by decide)
    | minus digits => exact ⟨digits, rfl⟩
  · rintro ⟨digits, rfl⟩
    exact .minus digits

theorem writes_unsigned_iff (hplus : c ≠ '+') (hminus : c ≠ '-') :
    Writes (c :: cs) n ↔ Digits (c :: cs) ∧ n = value (c :: cs) := by
  constructor
  · intro h
    cases h with
    | unsigned digits => exact ⟨digits, rfl⟩
    | plus => exact absurd rfl hplus
    | minus => exact absurd rfl hminus
  · rintro ⟨digits, rfl⟩
    exact .unsigned digits

/-- A text writes at most one integer. -/
theorem Writes.unique (h : Writes cs n) (h' : Writes cs m) : n = m := by
  cases h with
  | unsigned digits =>
    cases h' with
    | unsigned => rfl
    | plus => exact absurd digits.head (by decide)
    | minus => exact absurd digits.head (by decide)
  | plus => exact (writes_plus_iff.1 h').2.symm
  | minus => exact (writes_minus_iff.1 h').2.symm

/-! ### Decimal text -/

theorem digits_toDigits (n : Nat) : Digits (Nat.toDigits 10 n) := ⟨Nat.toDigits_ne_nil, isDigit_toDigits⟩

theorem value_toDigits (n : Nat) : value (Nat.toDigits 10 n) = n :=
  Nat.ofDigitChars_toDigits (by decide) (by decide)

/-- An integer in its decimal text is a natural number, or one behind a minus sign. -/
theorem toList_toString_cases (n : Int) :
    (∃ m : Nat, n = m ∧ (toString n).toList = Nat.toDigits 10 m) ∨
      ∃ m : Nat, n = -m ∧ (toString n).toList = '-' :: Nat.toDigits 10 m := by
  by_cases h : 0 ≤ n
  · obtain ⟨m, rfl⟩ := Int.eq_ofNat_of_zero_le h
    exact .inl ⟨m, rfl, toList_toString_natCast m⟩
  · obtain ⟨m, hm⟩ := Int.eq_ofNat_of_zero_le (show 0 ≤ -n by omega)
    have hn : n = -m := by omega
    refine .inr ⟨m, hn, ?_⟩
    rw [hn]
    exact toList_toString_neg (by omega)

theorem writes_toString (n : Int) : Writes (toString n).toList n := by
  rcases toList_toString_cases n with ⟨m, hm, h⟩ | ⟨m, hm, h⟩
  · rw [h, hm]
    have hplain := Writes.unsigned (digits_toDigits m)
    rwa [value_toDigits] at hplain
  · rw [h, hm]
    have hminus := Writes.minus (digits_toDigits m)
    rwa [value_toDigits] at hminus

theorem isBlank_toString {n : Int} (h : c ∈ (toString n).toList) : isBlank c = false := by
  rcases toList_toString_cases n with ⟨m, -, hm⟩ | ⟨m, -, hm⟩
  · rw [hm] at h
    exact isBlank_of_isDigit (isDigit_toDigits c h)
  · rw [hm] at h
    rcases List.mem_cons.1 h with rfl | h
    · decide
    · exact isBlank_of_isDigit (isDigit_toDigits c h)

/-! ### What the reader reads -/

/-- Counting up ends at the number that the digits write behind the ones before, if that is not too large. -/
theorem up_eq_ok_iff {n : Nat} (hn : (n : Int) ≤ hi) :
    up hi n cs = .ok m ↔ (∀ c ∈ cs, c.isDigit = true) ∧ m = Nat.ofDigitChars 10 cs n ∧ m ≤ hi := by
  induction cs generalizing n with
  | nil =>
    rw [up, Nat.ofDigitChars_nil, Except.ok.injEq]
    constructor
    · rintro rfl
      exact ⟨fun c hc => (by cases hc), rfl, hn⟩
    · rintro ⟨-, rfl, -⟩
      rfl
  | cons c cs ih =>
    rw [up, ofDigitChars_cons, List.forall_mem_cons]
    cases hc : c.isDigit with
    | false =>
      rw [digit_of_not_isDigit hc]
      exact iff_of_false nofun fun h => by cases h.1.1
    | true =>
      rw [digit_of_isDigit hc]
      dsimp only
      have hcast : (n : Int) * 10 + digitOf c = ((n * 10 + digitOf c : Nat) : Int) := by omega
      rw [hcast]
      by_cases hle : ((n * 10 + digitOf c : Nat) : Int) ≤ hi
      · rw [if_pos hle, ih hle]
        simp
      · rw [if_neg hle]
        refine iff_of_false nofun ?_
        rintro ⟨-, rfl, hm⟩
        have : n * 10 + digitOf c ≤ Nat.ofDigitChars 10 cs (n * 10 + digitOf c) := le_ofDigitChars
        omega

/-- Counting down is counting up on the other side of zero. -/
theorem down_eq_ok_iff : down lo n cs = .ok m ↔ up (-lo) (-n) cs = .ok (-m) := by
  induction cs generalizing n with
  | nil =>
    rw [down, up, Except.ok.injEq, Except.ok.injEq]
    omega
  | cons c cs ih =>
    rw [down, up]
    cases digit? c with
    | none => exact iff_of_false nofun nofun
    | some d =>
      dsimp only
      have hneg : -n * 10 + (d : Int) = -(n * 10 - d) := by omega
      rw [hneg]
      by_cases hle : lo ≤ n * 10 - d
      · rw [if_pos hle, if_pos (Int.neg_le_neg hle)]
        exact ih
      · rw [if_neg hle, if_neg (by omega)]
        exact iff_of_false nofun nofun

private theorem up_zero_iff (hhi : 0 ≤ hi) (hne : cs ≠ []) :
    up hi 0 cs = .ok n ↔ (Digits cs ∧ n = value cs) ∧ n ≤ hi := by
  refine (up_eq_ok_iff (n := 0) hhi).trans ?_
  constructor
  · rintro ⟨hd, rfl, hle⟩
    exact ⟨⟨⟨hne, hd⟩, rfl⟩, hle⟩
  · rintro ⟨⟨digits, rfl⟩, hle⟩
    exact ⟨digits.isDigit, rfl, hle⟩

end Numeral

open Numeral

/-- The reader reads the integers of its range that are written, and nothing else. -/
theorem readInt_eq_ok_iff {cs : List Char} {n lo hi : Int} (hlo : lo < 0) (hhi : 0 ≤ hi) :
    readInt lo hi cs = .ok n ↔ Writes cs n ∧ lo ≤ n ∧ n ≤ hi := by
  unfold readInt
  split
  · exact iff_of_false nofun fun h => not_writes_nil h.1
  · exact iff_of_false nofun fun h => (writes_plus_iff.1 h.1).1.ne_nil rfl
  · exact iff_of_false nofun fun h => (writes_minus_iff.1 h.1).1.ne_nil rfl
  · rename_i ds hds
    rw [up_zero_iff hhi fun h => hds (by rw [h]), writes_plus_iff]
    constructor
    · rintro ⟨⟨digits, rfl⟩, hle⟩
      exact ⟨⟨digits, rfl⟩, by omega, hle⟩
    · exact fun h => ⟨h.1, h.2.2⟩
  · rename_i ds hds
    rw [if_pos hlo, down_eq_ok_iff, Int.neg_zero, up_zero_iff (by omega) fun h => hds (by rw [h]), writes_minus_iff]
    constructor
    · rintro ⟨⟨digits, hn⟩, hle⟩
      exact ⟨⟨digits, by omega⟩, by omega, by omega⟩
    · rintro ⟨⟨digits, hn⟩, hle, -⟩
      exact ⟨⟨digits, by omega⟩, by omega⟩
  · rename_i hnil _ _ hplus hminus
    obtain ⟨c, ds, rfl⟩ := List.exists_cons_of_ne_nil hnil
    rw [up_zero_iff hhi hnil, writes_unsigned_iff (fun h => hplus ds (by rw [h])) fun h => hminus ds (by rw [h])]
    constructor
    · rintro ⟨⟨digits, rfl⟩, hle⟩
      exact ⟨⟨digits, rfl⟩, by omega, hle⟩
    · exact fun h => ⟨h.1, h.2.2⟩

end Fulfilment
