import Fulfilment.Proofs.Text.Digits
import Fulfilment.Time.Timestamp
import Mathlib.Algebra.Group.Nat.Defs

/-!
# Instants written and read back

The text of an instant is read part by part, each from where the one before has ended: the year with its sign, numbers
of two digits between marks, the fraction, the zone. Every instant is read back as it is, leap seconds and years
beyond four digits included (`Timestamp.parse_render`).
-/

namespace Fulfilment

namespace Timestamp

variable {c : Char} {cs rest : List Char} {n width : Nat}

/-! ### Digits -/

theorem padded_isDigit : ∀ c ∈ padded width n, c.isDigit = true := by
  intro c hc
  rcases List.mem_append.1 hc with hc | hc
  · rw [List.eq_of_mem_replicate hc]
    rfl
  · exact isDigit_toDigits c hc

theorem ofDigitChars_padded : Nat.ofDigitChars 10 (padded width n) 0 = n := by
  unfold padded
  dsimp only
  rw [Nat.ofDigitChars_append, Nat.ofDigitChars_replicate_zero, Nat.mul_zero,
    Nat.ofDigitChars_toDigits (by decide) (by decide)]

theorem length_padded (hwidth : 0 < width) (hn : n < 10 ^ width) : (padded width n).length = width := by
  have := (Nat.length_toDigits_le_iff (b := 10) (by decide) hwidth).2 hn
  unfold padded
  dsimp only
  rw [List.length_append, List.length_replicate]
  omega

theorem padded_cons (width n : Nat) : ∃ c cs, padded width n = c :: cs ∧ c.isDigit = true := by
  have hne : padded width n ≠ [] := List.append_ne_nil_of_right_ne_nil _ Nat.toDigits_ne_nil
  obtain ⟨c, cs, hcs⟩ := List.exists_cons_of_ne_nil hne
  exact ⟨c, cs, hcs, padded_isDigit c (hcs ▸ List.mem_cons_self)⟩

/-- Digits are read until there are enough of them or something else follows. -/
theorem digits_append (hcs : ∀ c ∈ cs, c.isDigit = true) (hlength : cs.length ≤ width)
    (hend : cs.length = width ∨ rest.head?.bind digit? = none) (hbound : Nat.ofDigitChars 10 cs n ≤ max64.toNat) :
    digits n width (cs ++ rest) = .ok (Nat.ofDigitChars 10 cs n, rest) := by
  induction cs generalizing n width with
  | nil =>
    cases width with
    | zero => rfl
    | succ width =>
      cases rest with
      | nil => rfl
      | cons c rest =>
        have hc : digit? c = none := hend.resolve_left nofun
        rw [List.nil_append, digits, hc]
        rfl
  | cons c cs ih =>
    obtain ⟨hc, hcs⟩ := List.forall_mem_cons.1 hcs
    obtain ⟨width, rfl⟩ : ∃ w, width = w + 1 := ⟨width - 1, by rw [List.length_cons] at hlength; omega⟩
    rw [ofDigitChars_cons] at hbound ⊢
    rw [List.cons_append, digits, digit_of_isDigit hc]
    dsimp only
    -- the number is within bounds after each of its digits
    rw [if_pos (Nat.le_trans le_ofDigitChars hbound)]
    refine ih hcs (Nat.le_of_succ_le_succ hlength) (hend.imp_left Nat.succ.inj) hbound

/-- A padded number is read to its last digit. -/
theorem number_padded {m : Nat} (hn : n ≤ max64.toNat) (hlength : (padded width n).length ≤ m)
    (hend : (padded width n).length = m ∨ rest.head?.bind digit? = none) :
    number m (padded width n ++ rest) = .ok (n, rest) := by
  have hdigits := digits_append (n := 0) padded_isDigit hlength hend (by rwa [ofDigitChars_padded])
  rw [ofDigitChars_padded] at hdigits
  obtain ⟨c, cs, hcs, hc⟩ := padded_cons width n
  rw [hcs, List.cons_append] at hdigits ⊢
  unfold number
  dsimp only
  rw [digit_of_isDigit hc]
  exact hdigits

theorem trimStart_padded : Blank.trimStart (padded width n ++ rest) = padded width n ++ rest := by
  obtain ⟨c, cs, hcs, hc⟩ := padded_cons width n
  rw [hcs, List.cons_append]
  exact Blank.trimStart_cons (isBlank_of_isDigit hc) _

theorem ranged_padded {lo hi : Nat} (hlo : lo ≤ n) (hhi : n ≤ hi) (hn : n < 100) :
    ranged lo hi (padded 2 n ++ rest) = .ok (n, rest) := by
  have hlength : (padded 2 n).length = 2 := length_padded (by decide) hn
  have hmax : (100 : Nat) ≤ max64.toNat := by decide
  unfold ranged
  rw [trimStart_padded, number_padded (by omega) (Nat.le_of_eq hlength) (.inl hlength)]
  exact if_pos ⟨hlo, hhi⟩

theorem mark_cons (hc : isBlank c = false) : mark c (c :: rest) = .ok rest := by
  unfold mark
  rw [Blank.trimStart_cons hc]
  exact if_pos rfl

theorem separator_T (cs : List Char) : separator ('T' :: cs) = .ok cs := rfl

/-! ### Years -/

theorem year_of_isDigit (hc : c.isDigit = true) :
    year (c :: cs) = (number 4 (c :: cs)).map fun x => ((x.1 : Int), x.2) := by
  unfold year
  rw [Blank.trimStart_cons (isBlank_of_isDigit hc)]
  split
  · rename_i h
    cases h
    cases hc
  · rename_i h
    cases h
    cases hc
  · cases number 4 (c :: cs) <;> rfl

theorem year_minus (cs : List Char) : year ('-' :: cs) = (number cs.length cs).map fun x => (-(x.1 : Int), x.2) := by
  have hminus : Blank.trimStart ('-' :: cs) = '-' :: cs := rfl
  unfold year
  rw [hminus]
  change (number cs.length cs >>= fun x => Except.ok (-(x.1 : Int), x.2)) = _
  cases number cs.length cs <;> rfl

theorem year_plus (cs : List Char) : year ('+' :: cs) = (number cs.length cs).map fun x => ((x.1 : Int), x.2) := by
  have hplus : Blank.trimStart ('+' :: cs) = '+' :: cs := rfl
  unfold year
  rw [hplus]
  change (number cs.length cs >>= fun x => Except.ok ((x.1 : Int), x.2)) = _
  cases number cs.length cs <;> rfl

theorem year_printYear {y : Int} (hy : y.natAbs ≤ max64.toNat) :
    year (printYear y ++ '-' :: rest) = .ok (y, '-' :: rest) := by
  have hdash : ('-' :: rest).head?.bind digit? = none := rfl
  unfold printYear
  split
  · rename_i hrange
    have hlength : (padded 4 y.toNat).length = 4 := length_padded (by decide) (by omega)
    have hnumber : number 4 (padded 4 y.toNat ++ '-' :: rest) = .ok (y.toNat, '-' :: rest) :=
      number_padded (by omega) (Nat.le_of_eq hlength) (.inl hlength)
    obtain ⟨c, cs, hcs, hc⟩ := padded_cons 4 y.toNat
    rw [hcs, List.cons_append] at hnumber ⊢
    rw [year_of_isDigit hc, hnumber]
    simp only [Except.map, Int.toNat_of_nonneg hrange.1]
  · -- behind a sign there is no limit to the digits, and the dash ends them
    have hnumber : number (padded 4 y.natAbs ++ '-' :: rest).length (padded 4 y.natAbs ++ '-' :: rest) =
        .ok (y.natAbs, '-' :: rest) := number_padded hy (by simp) (.inr hdash)
    split
    · have hvalue : -(y.natAbs : Int) = y := by omega
      rw [List.cons_append, year_minus, hnumber]
      simp only [Except.map, hvalue]
    · have hvalue : (y.natAbs : Int) = y := by omega
      rw [List.cons_append, year_plus, hnumber]
      simp only [Except.map, hvalue]

/-! ### Fractions -/

theorem fraction_dot (cs : List Char) :
    fraction ('.' :: cs) = (number 9 cs).map fun x =>
      (x.1 * Nat.pow 10 (9 - (cs.length - x.2.length)), x.2.dropWhile fun c => (digit? c).isSome) := by
  change (number 9 cs >>= fun x => Except.ok (x.1 * Nat.pow 10 (9 - (cs.length - x.2.length)),
    x.2.dropWhile fun c => (digit? c).isSome)) = _
  cases number 9 cs <;> rfl

/-- A fraction of `k` digits counts the units of the last of them. -/
theorem fraction_padded {k m : Nat} (hk : 0 < k) (hk' : k ≤ 9) (hm : m < 10 ^ k) :
    fraction ('.' :: padded k m ++ ['Z']) = .ok (m * Nat.pow 10 (9 - k), ['Z']) := by
  have hlength : (padded k m).length = k := length_padded hk hm
  have hmax : (10 : Nat) ^ 9 ≤ max64.toNat := by decide
  have hpow : 10 ^ k ≤ 10 ^ 9 := Nat.pow_le_pow_right (by decide) hk'
  have hnumber : number 9 (padded k m ++ ['Z']) = .ok (m, ['Z']) := number_padded (by omega) (by omega) (.inr rfl)
  rw [List.cons_append, fraction_dot, hnumber]
  simp only [Except.map, List.length_append, hlength, List.length_singleton, Nat.add_sub_cancel]
  rfl

theorem fraction_printFraction (hn : n < 1000000000) : fraction (printFraction n ++ ['Z']) = .ok (n, ['Z']) := by
  unfold printFraction
  split
  · rename_i hzero
    subst hzero
    rfl
  · split
    · rename_i hmillis
      rw [fraction_padded (by decide) (by decide) (by omega)]
      have : n / 1000000 * Nat.pow 10 (9 - 3) = n := Nat.div_mul_cancel (Nat.dvd_of_mod_eq_zero hmillis)
      rw [this]
    · split
      · rename_i hmicros
        rw [fraction_padded (by decide) (by decide) (by omega)]
        have : n / 1000 * Nat.pow 10 (9 - 6) = n := Nat.div_mul_cancel (Nat.dvd_of_mod_eq_zero hmicros)
        rw [this]
      · rw [fraction_padded (by decide) (by decide) (by omega)]
        exact congrArg (fun n => Except.ok (n, ['Z'])) (Nat.mul_one n)

/-! ### Instants -/

/-- A moment given by its date, its time of day and its nanoseconds. -/
theorem shift_zero (a : Instant) : Instant.shift? a.date a.second a.nanos 0 = some a := by
  have htime := a.valid
  simp only [isTime, Bool.and_eq_true, decide_eq_true_eq] at htime
  unfold Instant.shift? Instant.ofSeconds?
  rw [if_neg (by omega), if_neg (by omega), Int.sub_zero, Int.toNat_natCast]
  exact dif_pos a.valid

theorem make_date (d : Date) : Date.make? d.year d.month d.day = some d := dif_pos d.valid

/-- The seconds of an instant as they are written: the sixtieth is the leap second. -/
def secondOf (a : Instant) : Nat := a.second % 60 + if 1000000000 ≤ a.nanos then 1 else 0

/-- The fraction of an instant as it is written. -/
def nanosOf (a : Instant) : Nat := if 1000000000 ≤ a.nanos then a.nanos - 1000000000 else a.nanos

/-- What is written for the seconds tells whether they are the leap second. -/
theorem secondOf_spec (a : Instant) :
    secondOf a ≤ 60 ∧ nanosOf a < 1000000000 ∧
      (if secondOf a = 60 then 59 else secondOf a) = a.second % 60 ∧
      (if secondOf a = 60 then nanosOf a + 1000000000 else nanosOf a) = a.nanos := by
  have htime := a.valid
  simp only [isTime, Bool.and_eq_true, Bool.or_eq_true, decide_eq_true_eq, beq_iff_eq] at htime
  unfold secondOf nanosOf
  by_cases hleap : 1000000000 ≤ a.nanos
  · -- only the last second of a minute has a leap second behind it
    have hlast : a.second % 60 = 59 := by omega
    simp only [if_pos hleap, hlast]
    exact ⟨by decide, by omega, rfl, Nat.sub_add_cancel hleap⟩
  · have hne : ¬ a.second % 60 + 0 = 60 := by omega
    simp only [if_neg hleap, if_neg hne]
    exact ⟨by omega, by omega, rfl, trivial⟩

theorem assemble_parts (a : Instant) :
    assemble a.date.year a.date.month a.date.day (a.second / 3600) (a.second / 60 % 60) (secondOf a) (nanosOf a) 0 =
      .ok a := by
  obtain ⟨-, -, hsecond, hnanos⟩ := secondOf_spec a
  have hwhole : a.second / 3600 * 3600 + a.second / 60 % 60 * 60 + a.second % 60 = a.second := by omega
  unfold assemble
  rw [make_date]
  dsimp only
  rw [if_neg (by decide), hsecond, hnanos, hwhole, shift_zero]

theorem print_eq (a : Instant) :
    print a = printYear a.date.year ++ '-' :: (padded 2 a.date.month ++ '-' :: (padded 2 a.date.day ++ 'T' ::
      (padded 2 (a.second / 3600) ++ ':' :: (padded 2 (a.second / 60 % 60) ++ ':' ::
        (padded 2 (secondOf a) ++ (printFraction (nanosOf a) ++ ['Z'])))))) := by
  simp [print, secondOf, nanosOf]

theorem date_bounds (d : Date) : d.year.natAbs ≤ 262143 ∧ 1 ≤ d.month ∧ d.month ≤ 12 ∧ 1 ≤ d.day ∧ d.day ≤ 31 := by
  have hdate := d.valid
  have hmonth : daysInMonth d.year d.month ≤ 31 := by
    unfold daysInMonth
    split
    · split <;> omega
    · split <;> omega
  simp only [isDate, Bool.and_eq_true, decide_eq_true_eq] at hdate
  unfold firstYear lastYear at hdate
  omega

theorem parseChars_print (a : Instant) : parseChars (print a) = .ok a := by
  have htime := a.valid
  simp only [isTime, Bool.and_eq_true, decide_eq_true_eq] at htime
  obtain ⟨hyear, hmonth, hmonth', hday, hday'⟩ := date_bounds a.date
  obtain ⟨hsecond, hnanos, -, -⟩ := secondOf_spec a
  have hmax : (262143 : Nat) ≤ max64.toNat := by decide
  have hdash : isBlank '-' = false := rfl
  have hcolon : isBlank ':' = false := rfl
  rw [print_eq, parseChars, year_printYear (by omega)]
  simp only [bind, Except.bind, mark_cons hdash]
  rw [ranged_padded hmonth hmonth' (by omega)]
  simp only [mark_cons hdash]
  rw [ranged_padded hday hday' (by omega)]
  simp only [separator_T]
  rw [ranged_padded (Nat.zero_le _) (by omega) (by omega)]
  simp only [mark_cons hcolon]
  rw [ranged_padded (Nat.zero_le _) (by omega) (by omega)]
  simp only [mark_cons hcolon]
  rw [ranged_padded (Nat.zero_le _) (by omega) (by omega)]
  simp only [fraction_printFraction hnanos]
  exact assemble_parts a

theorem parse_render (a : Instant) : parse (render a) = .ok a := by
  rw [parse, render, String.toList_ofList, parseChars_print]

end Timestamp

end Fulfilment
