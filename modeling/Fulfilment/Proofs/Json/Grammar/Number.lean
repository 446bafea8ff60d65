import Fulfilment.Proofs.Json.Grammar.Text
import Fulfilment.Proofs.Json.Front

/-!
# The grammar of numbers

A number is written as digits before a point, digits behind it, and an exponent, of which the latter two may be
missing. No digit stands behind a zero that comes first. Such numerals are read if their value is in range, and no
others are (`SpellsNumber.numberAt?` and `spelled_of_numberAt?`).
-/

namespace Fulfilment

namespace Json

namespace NumberText

/-- Digits one after another. -/
inductive Digits : Bytes → List Nat → Prop
  | nil : Digits [] []
  | cons {b : UInt8} {d : Nat} {bs : Bytes} {ds : List Nat} (digit : digitByte? b = some d) (rest : Digits bs ds) :
    Digits (b :: bs) (d :: ds)

/-- The digits before the point. -/
inductive Whole : Bytes → List Nat → Prop
  | zero : Whole [48] [0]
  | digits {b : UInt8} {d : Nat} {bs : Bytes} {ds : List Nat} (first : digitByte? b = some d) (positive : d ≠ 0)
      (rest : Digits bs ds) :
    Whole (b :: bs) (d :: ds)

/-- The point and the digits behind it. -/
inductive Fraction : Bytes → List Nat → Prop
  | none : Fraction [] []
  | digits {b : UInt8} {d : Nat} {bs : Bytes} {ds : List Nat} (first : digitByte? b = some d) (rest : Digits bs ds) :
    Fraction (46 :: b :: bs) (d :: ds)

/-- The digits `ds` put behind `n`. -/
def grown (n : Nat) (ds : List Nat) : Nat := ds.foldl (fun n d => n * 10 + d) n

/-- The digits `ds` put behind `n`, but for those with which it would leave the range of an exponent. -/
def capped (n : Nat) (ds : List Nat) : Nat :=
  ds.foldl (fun n d => if n * 10 + d ≤ max32.toNat then n * 10 + d else n) n

/-- The exponent of a numeral, of which the digits are all `zero` or not. One that makes large must be in range,
unless there is nothing to be made large. -/
inductive Exponent (zero : Bool) : Bytes → Option Int → Prop
  | none : Exponent zero [] none
  | negative {l b : UInt8} {d : Nat} {bs : Bytes} {ds : List Nat} (letter : l = 101 ∨ l = 69)
      (first : digitByte? b = some d) (rest : Digits bs ds) :
    Exponent zero (l :: 45 :: b :: bs) (some (-(capped d ds : Int)))
  | positive {l b : UInt8} {d : Nat} {sign bs : Bytes} {ds : List Nat} (letter : l = 101 ∨ l = 69)
      (plus : sign = [] ∨ sign = [43]) (first : digitByte? b = some d) (rest : Digits bs ds)
      (range : zero = false → grown d ds ≤ max32.toNat) :
    Exponent zero (l :: (sign ++ b :: bs)) (some (capped d ds))

variable {mode : Mode} {b : UInt8} {d n : Nat} {ds : List Nat} {text bs rest : Bytes} {p : Position} {c c' : Cursor}

/-! ### Digits -/

theorem digitRun_append (h : Digits bs ds) (hrest : Undigit rest) :
    digitRun (bs ++ rest) p = (ds, ⟨rest, p.past bs⟩) := by
  induction h generalizing p with
  | nil =>
    cases rest with
    | nil => rfl
    | cons b rest =>
      have hb : digitByte? b = none := hrest
      simp [digitRun, hb]
  | cons digit _ ih =>
    rw [List.cons_append, digitRun, digit]
    dsimp only
    rw [ih]
    rfl

/-- Every text starts with digits, if only with none, and goes on with something else. -/
theorem exists_digits (bs : Bytes) : ∃ text ds rest, bs = text ++ rest ∧ Digits text ds ∧ Undigit rest := by
  induction bs with
  | nil => exact ⟨[], [], [], rfl, .nil, rfl⟩
  | cons b bs ih =>
    cases hb : digitByte? b with
    | none => exact ⟨[], [], b :: bs, rfl, .nil, hb⟩
    | some d =>
      obtain ⟨text, ds, rest, rfl, hdigits, hrest⟩ := ih
      exact ⟨b :: text, d :: ds, rest, rfl, .cons hb hdigits, hrest⟩

theorem le_grown (n : Nat) (ds : List Nat) : n ≤ grown n ds := by
  induction ds generalizing n with
  | nil => exact Nat.le_refl n
  | cons d ds ih =>
    have := ih (n * 10 + d)
    rw [grown, List.foldl_cons]
    unfold grown at this
    omega

theorem exponentRun_append {strict : Bool} (h : Digits bs ds) (hrest : Undigit rest)
    (range : strict = true → grown n ds ≤ max32.toNat) :
    exponentRun strict n (bs ++ rest) p = .ok (capped n ds, ⟨rest, p.past bs⟩) := by
  induction h generalizing n p with
  | nil =>
    cases rest with
    | nil => rfl
    | cons b rest =>
      have hb : digitByte? b = none := hrest
      simp [exponentRun, hb, capped]
  | @cons b d bs ds digit _ ih =>
    rw [List.cons_append, exponentRun, digit, capped, List.foldl_cons]
    dsimp only
    by_cases hle : n * 10 + d ≤ max32.toNat
    · rw [if_pos hle, if_pos hle]
      exact ih range
    · have hstrict : strict ≠ true := fun h => hle (Nat.le_trans (le_grown _ ds) (range h))
      rw [if_neg hle, if_neg hle, if_neg hstrict]
      exact ih fun h => absurd h hstrict

theorem grown_le_of_exponentRun {x : Nat × Cursor} (h : Digits bs ds) (hn : n ≤ max32.toNat)
    (hrun : exponentRun true n (bs ++ rest) p = .ok x) : grown n ds ≤ max32.toNat := by
  induction h generalizing n p with
  | nil => exact hn
  | @cons b d bs ds digit _ ih =>
    rw [List.cons_append, exponentRun, digit] at hrun
    dsimp only at hrun
    by_cases hle : n * 10 + d ≤ max32.toNat
    · rw [if_pos hle] at hrun
      exact ih hle hrun
    · rw [if_neg hle] at hrun
      cases hrun

theorem le_of_digitByte? (h : digitByte? b = some d) : d ≤ 9 := by
  unfold digitByte? at h
  split at h
  · rename_i hrange
    obtain ⟨-, hhi⟩ := hrange
    have hhi : b.toNat ≤ 57 := hhi
    cases h
    omega
  · cases h

theorem eq_of_digitByte?_zero (h : digitByte? b = some 0) : b = 48 := by
  unfold digitByte? at h
  split at h
  · rename_i hrange
    have hlo : 48 ≤ b.toNat := hrange.1
    have hzero : b.toNat - 48 = 0 := Option.some.inj h
    rw [← UInt8.toNat_inj]
    exact Nat.le_antisymm (Nat.sub_eq_zero_iff_le.1 hzero) hlo
  · cases h

/-! ### The three parts -/

theorem readWhole_append (h : Whole text ds) (hrest : Undigit rest) :
    readWhole mode ⟨text ++ rest, p⟩ = .ok (ds, ⟨rest, p.past text⟩) := by
  cases h with
  | zero =>
    have hzero : digitByte? 48 = some 0 := rfl
    unfold readWhole
    simp only [List.singleton_append, hzero]
    rw [hrest]
    rfl
  | @digits b d bs ds first positive hdigits =>
    unfold readWhole
    simp only [List.cons_append, first]
    rw [digitRun_append hdigits hrest]
    rfl

theorem whole_of_readWhole (h : readWhole mode c = .ok (ds, c')) : ∃ text, Whole text ds ∧ c.Passes text c' := by
  obtain ⟨r, p⟩ := c
  unfold readWhole at h
  split at h
  · cases h
  · rename_i b r' hr
    obtain rfl : r = b :: r' := hr
    split at h
    · cases h
    · rename_i hzero
      dsimp only at h
      split at h <;> cases h
      obtain rfl := eq_of_digitByte?_zero hzero
      exact ⟨[48], .zero, r', p, rfl, rfl⟩
    · rename_i d positive hd
      cases h
      obtain ⟨text, ds, rest, rfl, hdigits, hrest⟩ := exists_digits r'
      rw [digitRun_append hdigits hrest]
      exact ⟨b :: text, .digits hd positive hdigits, rest, p, rfl, rfl⟩

theorem readFraction_append (h : Fraction text ds) (hrest : Undigit rest) (point : rest.head? ≠ some 46) :
    readFraction mode ⟨text ++ rest, p⟩ = .ok (ds, ⟨rest, p.past text⟩) := by
  cases h with
  | none =>
    cases rest with
    | nil => rfl
    | cons b rest => exact if_neg fun hb => point (congrArg some hb)
  | @digits b d bs ds first hdigits =>
    have hrun : digitRun (b :: bs ++ rest) (p.after 46) = (d :: ds, ⟨rest, (p.after 46).past (b :: bs)⟩) :=
      digitRun_append (.cons first hdigits) hrest
    unfold readFraction
    simp only [List.cons_append, if_true] at hrun ⊢
    rw [hrun]
    rfl

theorem fraction_of_readFraction (h : readFraction mode c = .ok (ds, c')) :
    ∃ text, Fraction text ds ∧ c.Passes text c' := by
  obtain ⟨r, p⟩ := c
  unfold readFraction at h
  split at h
  · cases h
    exact ⟨[], .none, .refl _⟩
  · rename_i b r' hr
    obtain rfl : r = b :: r' := hr
    dsimp only at h
    split at h
    · rename_i hpoint
      subst hpoint
      obtain ⟨text, ds', rest, rfl, hdigits, hrest⟩ := exists_digits r'
      rw [digitRun_append hdigits hrest] at h
      cases hdigits with
      | nil =>
        rw [if_pos rfl] at h
        split at h <;> cases h
      | cons first hdigits =>
        cases h
        exact ⟨_, .digits first hdigits, rest, p, rfl, rfl⟩
    · cases h
      exact ⟨[], .none, .refl _⟩

theorem exponentDigits_append {strict : Bool} (first : digitByte? b = some d) (h : Digits bs ds)
    (hrest : Undigit rest) (range : strict = true → grown d ds ≤ max32.toNat) :
    exponentDigits mode strict ⟨b :: bs ++ rest, p⟩ = .ok (capped d ds, ⟨rest, p.past (b :: bs)⟩) := by
  unfold exponentDigits
  simp only [List.cons_append, first]
  exact exponentRun_append h hrest range

theorem digits_of_exponentDigits {strict : Bool} (h : exponentDigits mode strict c = .ok (n, c')) :
    ∃ b d bs ds, digitByte? b = some d ∧ Digits bs ds ∧ n = capped d ds ∧ c.Passes (b :: bs) c' ∧
      (strict = true → grown d ds ≤ max32.toNat) := by
  obtain ⟨r, p⟩ := c
  unfold exponentDigits at h
  split at h
  · cases h
  · rename_i b r' hr
    obtain rfl : r = b :: r' := hr
    dsimp only at h
    split at h
    · cases h
    · rename_i d first
      obtain ⟨text, ds, rest, rfl, hdigits, hrest⟩ := exists_digits r'
      have hrange : strict = true → grown d ds ≤ max32.toNat := by
        rintro rfl
        exact grown_le_of_exponentRun hdigits (Nat.le_trans (le_of_digitByte? first) (by decide)) h
      rw [exponentRun_append hdigits hrest hrange] at h
      cases h
      exact ⟨b, d, text, ds, first, hdigits, rfl, ⟨rest, p, rfl, rfl⟩, hrange⟩

theorem readExponent_minus {zero : Bool} {l : UInt8} (letter : l = 101 ∨ l = 69) :
    readExponent mode zero ⟨l :: 45 :: rest, p⟩ = match exponentDigits mode false ⟨rest, (p.after l).after 45⟩ with
      | .error e => .error e
      | .ok (n, d) => .ok (some (-(n : Int)), d) :=
  if_pos letter

theorem readExponent_sign {zero : Bool} {l s : UInt8} (letter : l = 101 ∨ l = 69) (hs : s ≠ 45) :
    readExponent mode zero ⟨l :: s :: rest, p⟩ =
      match exponentDigits mode (mode = .keep && !zero)
        (if s = 43 then ⟨rest, (p.after l).after s⟩ else ⟨s :: rest, p.after l⟩) with
      | .error e => .error e
      | .ok (n, d) => .ok (some n, d) :=
  (if_pos letter).trans (if_neg hs)

theorem ne_of_digitByte? (h : digitByte? b = some d) : b ≠ 43 ∧ b ≠ 45 := by
  constructor <;> rintro rfl <;> cases h

/-- An exponent is read where what follows it closes a value. -/
theorem readExponent_append {zero : Bool} {x : Option Int} (h : Exponent zero text x) (hrest : Closes rest) :
    readExponent .keep zero ⟨text ++ rest, p⟩ = .ok (x, ⟨rest, p.past text⟩) := by
  cases h with
  | none => exact readExponent_closes hrest
  | @negative l b d bs ds letter first hdigits =>
    have hread : exponentDigits .keep false ⟨b :: (bs ++ rest), (p.after l).after 45⟩ = _ :=
      exponentDigits_append first hdigits hrest.undigit nofun
    change readExponent .keep zero ⟨l :: 45 :: b :: (bs ++ rest), p⟩ = _
    rw [readExponent_minus letter, hread]
    rfl
  | @positive l b d sign bs ds letter plus first hdigits range =>
    have hstrict : (decide (Mode.keep = .keep) && !zero) = true → grown d ds ≤ max32.toNat := by
      intro h
      exact range (by simpa using h)
    have hread (p : Position) :
        exponentDigits .keep (decide (Mode.keep = .keep) && !zero) ⟨b :: (bs ++ rest), p⟩ = _ :=
      exponentDigits_append first hdigits hrest.undigit hstrict
    obtain ⟨hplus, hminus⟩ := ne_of_digitByte? first
    rcases plus with rfl | rfl
    · change readExponent .keep zero ⟨l :: b :: (bs ++ rest), p⟩ = _
      rw [readExponent_sign letter hminus, if_neg hplus, hread]
      rfl
    · change readExponent .keep zero ⟨l :: 43 :: b :: (bs ++ rest), p⟩ = _
      rw [readExponent_sign letter (by decide), if_pos rfl, hread]
      rfl

theorem exponent_of_readExponent {zero : Bool} {x : Option Int} (h : readExponent .keep zero c = .ok (x, c')) :
    ∃ text, Exponent zero text x ∧ c.Passes text c' := by
  obtain ⟨r, p⟩ := c
  match r with
  | [] =>
    cases h
    exact ⟨[], .none, .refl _⟩
  | l :: r =>
    by_cases letter : l = 101 ∨ l = 69
    · match r with
      | [] =>
        unfold readExponent at h
        dsimp only at h
        rw [if_pos letter] at h
        cases h
      | s :: r' =>
        by_cases hs : s = 45
        · subst hs
          rw [readExponent_minus letter] at h
          split at h <;> cases h
          rename_i n hread
          obtain ⟨b, d, bs, ds, first, hdigits, rfl, ⟨r, q, hc, rfl⟩, -⟩ := digits_of_exponentDigits hread
          obtain ⟨rfl, rfl⟩ := Cursor.mk.inj hc
          exact ⟨_, .negative letter first hdigits, r, p, rfl, rfl⟩
        · rw [readExponent_sign letter hs] at h
          split at h <;> cases h
          rename_i n hread
          obtain ⟨b, d, bs, ds, first, hdigits, rfl, ⟨r, q, hc, rfl⟩, hrange⟩ := digits_of_exponentDigits hread
          have range : zero = false → grown d ds ≤ max32.toNat := by
            rintro rfl
            exact hrange rfl
          split at hc
          · rename_i hplus
            subst hplus
            obtain ⟨rfl, rfl⟩ := Cursor.mk.inj hc
            exact ⟨_, .positive letter (.inr rfl) first hdigits range, r, p, rfl, rfl⟩
          · obtain ⟨hr, rfl⟩ := Cursor.mk.inj hc
            obtain ⟨rfl, rfl⟩ := List.cons.inj hr
            exact ⟨_, .positive letter (.inl rfl) first hdigits range, r, p, rfl, rfl⟩
    · unfold readExponent at h
      dsimp only at h
      rw [if_neg letter] at h
      cases h
      exact ⟨[], .none, .refl _⟩

/-- An exponent does not start with a digit or a point. -/
theorem Exponent.follows {zero : Bool} {x : Option Int} (h : Exponent zero text x) (hrest : Closes rest) :
    Undigit (text ++ rest) ∧ (text ++ rest).head? ≠ some 46 := by
  cases h with
  | none =>
    refine ⟨hrest.undigit, ?_⟩
    cases rest with
    | nil => nofun
    | cons b rest => exact fun hb => hrest.ends.2.1 (Option.some.inj hb)
  | negative letter | positive letter => rcases letter with rfl | rfl <;> exact ⟨rfl, by simp⟩

/-- What stands behind the digits before the point does not start with a digit either. -/
theorem Fraction.undigit (h : Fraction text ds) (hrest : Undigit rest) : Undigit (text ++ rest) := by
  cases h with
  | none => exact hrest
  | digits => rfl

end NumberText

/-! ### Numerals -/

open NumberText

/-- A number without its sign, and the value that it has behind a minus sign if `negative`. -/
inductive Numeral (negative : Bool) : Bytes → Number → Prop
  | parts {whole fraction exponent : Bytes} {ds fs : List Nat} {x : Option Int} {n : Number} (hwhole : Whole whole ds)
      (hfraction : Fraction fraction fs)
      (hexponent : Exponent (ds.all (· == 0) && fs.all (· == 0)) exponent x)
      (value : value? negative ⟨ds, fs, x⟩ = some n) :
    Numeral negative (whole ++ (fraction ++ exponent)) n

/-- A number, with its sign if it has one. -/
inductive SpellsNumber : Bytes → Number → Prop
  | plain {text : Bytes} {n : Number} (numeral : Numeral false text n) : SpellsNumber text n
  | negative {text : Bytes} {n : Number} (numeral : Numeral true text n) : SpellsNumber (45 :: text) n

variable {negative : Bool} {n : Number} {text rest : Bytes} {p : Position} {c d : Cursor}

theorem readNumber_numeral (h : Numeral negative text n) (hrest : Closes rest) :
    readNumber negative ⟨text ++ rest, p⟩ = .ok (n, ⟨rest, p.past text⟩) := by
  cases h with
  | @parts whole fraction exponent ds fs x _ hwhole hfraction hexponent value =>
    obtain ⟨hundigit, hpoint⟩ := hexponent.follows hrest
    have hread : NumberText.read .keep ⟨whole ++ (fraction ++ (exponent ++ rest)), p⟩ =
        .ok (⟨ds, fs, x⟩, ⟨rest, ((p.past whole).past fraction).past exponent⟩) := by
      unfold NumberText.read
      rw [readWhole_append hwhole (hfraction.undigit hundigit)]
      dsimp only
      rw [readFraction_append hfraction hundigit hpoint]
      dsimp only
      rw [readExponent_append hexponent hrest]
    unfold readNumber
    rw [List.append_assoc, List.append_assoc, hread]
    dsimp only
    rw [value, Position.past_append, Position.past_append]

theorem numeral_of_readNumber (h : readNumber negative c = .ok (n, d)) :
    ∃ text, Numeral negative text n ∧ c.Passes text d := by
  unfold readNumber at h
  split at h
  · cases h
  · rename_i t d' hread
    split at h <;> cases h
    rename_i value
    unfold NumberText.read at hread
    split at hread
    · cases hread
    · rename_i hreadWhole
      split at hread
      · cases hread
      · rename_i hreadFraction
        split at hread <;> cases hread
        rename_i hreadExponent
        obtain ⟨whole, hwhole, hpasses⟩ := whole_of_readWhole hreadWhole
        obtain ⟨fraction, hfraction, hpasses'⟩ := fraction_of_readFraction hreadFraction
        obtain ⟨exponent, hexponent, hpasses''⟩ := exponent_of_readExponent hreadExponent
        exact ⟨_, .parts hwhole hfraction hexponent value, hpasses.trans (hpasses'.trans hpasses'')⟩

/-! ### Numbers at the front -/

/-- A digit starts a number, and nothing else. -/
theorem lead_of_digitByte? {b : UInt8} {k : Nat} (h : digitByte? b = some k) :
    Lead.ofByte b = .digit ∧ Cursor.isBlankByte b = false ∧ b ≠ 93 := by
  have hrange : 48 ≤ b ∧ b ≤ 57 := by
    unfold digitByte? at h
    split at h
    · assumption
    · cases h
  have hne {x : UInt8} (hx : ¬ (48 ≤ x ∧ x ≤ 57)) : b ≠ x := by
    rintro rfl
    exact hx hrange
  refine ⟨?_, ?_, hne (by decide)⟩
  · unfold Lead.ofByte
    rw [if_neg (hne (by decide)), if_neg (hne (by decide)), if_neg (hne (by decide)), if_neg (hne (by decide)),
      if_pos hrange]
  · have hblanks : b ≠ 32 ∧ b ≠ 10 ∧ b ≠ 9 ∧ b ≠ 13 :=
      ⟨hne (by decide), hne (by decide), hne (by decide), hne (by decide)⟩
    simp [Cursor.isBlankByte, hblanks]

theorem Numeral.exists_digit (h : Numeral negative text n) : ∃ b t k, text = b :: t ∧ digitByte? b = some k := by
  cases h with
  | parts hwhole =>
    cases hwhole with
    | zero => exact ⟨48, _, 0, rfl, rfl⟩
    | digits first => exact ⟨_, _, _, rfl, first⟩

theorem SpellsNumber.opens (h : SpellsNumber text n) : Opens text := by
  cases h with
  | plain numeral =>
    obtain ⟨b, t, k, rfl, hb⟩ := numeral.exists_digit
    exact (lead_of_digitByte? hb).2
  | negative => exact ⟨rfl, by decide⟩

/-- A number is read where what follows it closes a value. -/
theorem SpellsNumber.numberAt? (h : SpellsNumber text n) (hrest : Closes rest) :
    numberAt? ⟨text ++ rest, p⟩ = some (.ok (n, ⟨rest, p.past text⟩)) := by
  cases h with
  | plain numeral =>
    have hread := readNumber_numeral (p := p) numeral hrest
    obtain ⟨b, t, k, rfl, hb⟩ := numeral.exists_digit
    unfold Json.numberAt?
    dsimp only [List.cons_append]
    rw [(lead_of_digitByte? hb).1]
    exact congrArg some hread
  | negative numeral => exact congrArg some (readNumber_numeral numeral hrest)

theorem spelled_of_numberAt? (h : numberAt? c = some (.ok (n, d))) :
    ∃ text, SpellsNumber text n ∧ c.Passes text d := by
  obtain ⟨r, p⟩ := c
  unfold numberAt? at h
  split at h
  · cases h
  · rename_i b r' hr
    obtain rfl : r = b :: r' := hr
    have hb := Lead.of_ofByte b
    cases hlead : Lead.ofByte b with
    | minus =>
      rw [hlead] at h hb
      obtain rfl : b = 45 := hb
      obtain ⟨text, hnumeral, r, q, hc, rfl⟩ := numeral_of_readNumber (Option.some.inj h)
      obtain ⟨rfl, rfl⟩ := Cursor.mk.inj hc
      exact ⟨45 :: text, .negative hnumeral, r, p, rfl, rfl⟩
    | digit =>
      rw [hlead] at h
      obtain ⟨text, hnumeral, hpasses⟩ := numeral_of_readNumber (Option.some.inj h)
      exact ⟨text, .plain hnumeral, hpasses⟩
    | _ =>
      rw [hlead] at h
      cases h

end Json

end Fulfilment
