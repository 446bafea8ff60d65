import Fulfilment.Json.Text
import Fulfilment.Json.Value

/-!
# Numbers of a document

A number is an integer where it has neither fraction nor exponent and fits into a signed or unsigned word of 64 bits;
any other is a double. The double is computed from as many leading digits as fit into a word, scaled by powers of ten.

* `NumberText.value?`: the value of the digits, unless it is too large.
* `readNumber`: the digits in the text, and their value.
-/

namespace Fulfilment

namespace Json

inductive Number
  | int (n : Int)
  | float (x : Float)
  deriving Repr

namespace Number

def found : Number → Found
  | int n => .int n
  | float x => .float x

def toValue : Number → Value
  | int n => .int n
  | float x => .float x

end Number

/-- The parts of a number without its sign. -/
structure NumberText where
  whole : List Nat
  fraction : List Nat
  exponent : Option Int

namespace NumberText

/-- Appends digits to `n` while the result fits into a word, and counts those taken. -/
def gather (n : Nat) : List Nat → Nat × Nat
  | [] => (n, 0)
  | d :: ds =>
    if n * 10 + d ≤ maxWord64.toNat then
      let rest := gather (n * 10 + d) ds
      (rest.1, rest.2 + 1)
    else (n, 0)

def power10 (e : Nat) : Float := Float.ofScientific 1 false e

/-- `x / 10^e`, in steps that do not overflow. -/
def scaleDown (x : Float) (e : Nat) : Float :=
  if e ≤ 308 then x / power10 e
  else if x == 0.0 then x
  else scaleDown (x / power10 308) (e - 308)
  termination_by e

/-- `x · 10^e`, unless it is too large. -/
def scaleUp? (x : Float) (e : Nat) : Option Float :=
  if e ≤ 308 then (if (x * power10 e).isInf then none else some (x * power10 e))
  else if x == 0.0 then some x
  else none

/-- The double of the digits. -/
def double? (t : NumberText) : Option Float :=
  let (n, whole) := gather 0 t.whole
  let (m, fraction) := gather n t.fraction
  let e : Int := (t.whole.length - whole : Nat) - (fraction : Int) + t.exponent.getD 0
  let x := m.toUInt64.toFloat
  if 0 ≤ e then scaleUp? x e.toNat else some (scaleDown x e.natAbs)

/-- The integer that digits write. -/
def natural (ds : List Nat) : Nat := ds.foldl (fun n d => n * 10 + d) 0

/-- The value of the digits behind a minus sign, or without one. -/
def value? (negative : Bool) (t : NumberText) : Option Number :=
  let n : Int := natural t.whole
  if t.fraction = [] ∧ t.exponent = none ∧ !negative ∧ n ≤ maxWord64 then some (.int n)
  else if t.fraction = [] ∧ t.exponent = none ∧ negative ∧ n ≠ 0 ∧ n ≤ -min64 then some (.int (-n))
  else t.double?.map fun x => .float (if negative then -x else x)

/-! ### The digits in the text -/

def digitByte? (b : UInt8) : Option Nat := if 48 ≤ b ∧ b ≤ 57 then some (b.toNat - 48) else none

/-- The digits at the front of a text. -/
def digitRun : Bytes → Position → List Nat × Cursor
  | [], p => ([], ⟨[], p⟩)
  | b :: r, p =>
    match digitByte? b with
    | some d =>
      let run := digitRun r (p.after b)
      (d :: run.1, run.2)
    | none => ([], ⟨b :: r, p⟩)

/-- What the end of the text within a number is called. -/
def endFault : Mode → Malformation
  | .keep => .endInValue
  | .skip => .badNumber

/-- The digits before the point: a single zero, or digits of which the first is none. -/
def readWhole (mode : Mode) (c : Cursor) : Except Fault (List Nat × Cursor) :=
  match c.rest with
  | [] => .error (malformed (endFault mode) c.position)
  | b :: r =>
    match digitByte? b with
    | none => .error (malformed .badNumber (c.position.after b))
    | some 0 =>
      let after : Cursor := ⟨r, c.position.after b⟩
      if (r.head?.bind digitByte?).isSome then .error (malformed .badNumber after.beyond) else .ok ([0], after)
    | some d =>
      let run := digitRun r (c.position.after b)
      .ok (d :: run.1, run.2)

/-- The digits behind the point, none without a point. -/
def readFraction (mode : Mode) (c : Cursor) : Except Fault (List Nat × Cursor) :=
  match c.rest with
  | [] => .ok ([], c)
  | b :: r =>
    if b = 46 then
      let run := digitRun r (c.position.after b)
      if run.1 = [] then
        if run.2.rest = [] then .error (malformed (endFault mode) run.2.position)
        else .error (malformed .badNumber run.2.beyond)
      else .ok run
    else .ok ([], c)

/-- The digits of an exponent, put behind `n`. A `strict` exponent is a fault where it leaves the range of a signed
word of 32 bits; any other stops growing there. -/
def exponentRun (strict : Bool) (n : Nat) : Bytes → Position → Except Fault (Nat × Cursor)
  | [], p => .ok (n, ⟨[], p⟩)
  | b :: r, p =>
    match digitByte? b with
    | none => .ok (n, ⟨b :: r, p⟩)
    | some d =>
      if n * 10 + d ≤ max32.toNat then exponentRun strict (n * 10 + d) r (p.after b)
      else if strict then .error (malformed .numberOutOfRange (p.after b))
      else exponentRun strict n r (p.after b)

/-- The first digit of an exponent and those behind it. -/
def exponentDigits (mode : Mode) (strict : Bool) (c : Cursor) : Except Fault (Nat × Cursor) :=
  match c.rest with
  | [] => .error (malformed (endFault mode) c.position)
  | b :: r =>
    match digitByte? b with
    | none => .error (malformed .badNumber (c.position.after b))
    | some d => exponentRun strict d r (c.position.after b)

/-- The exponent, none without its letter. The exponent of zero, and one that makes small, may be of any size. -/
def readExponent (mode : Mode) (zero : Bool) (c : Cursor) : Except Fault (Option Int × Cursor) :=
  match c.rest with
  | [] => .ok (none, c)
  | b :: r =>
    if b = 101 ∨ b = 69 then
      let after : Cursor := ⟨r, c.position.after b⟩
      match r with
      | [] => .error (malformed (endFault mode) after.position)
      | s :: r' =>
        let signed : Cursor := ⟨r', after.position.after s⟩
        if s = 45 then
          match exponentDigits mode false signed with
          | .error e => .error e
          | .ok (n, d) => .ok (some (-(n : Int)), d)
        else
          match exponentDigits mode (mode = .keep && !zero) (if s = 43 then signed else after) with
          | .error e => .error e
          | .ok (n, d) => .ok (some n, d)
    else .ok (none, c)

def read (mode : Mode) (c : Cursor) : Except Fault (NumberText × Cursor) :=
  match readWhole mode c with
  | .error e => .error e
  | .ok (whole, c₁) =>
    match readFraction mode c₁ with
    | .error e => .error e
    | .ok (fraction, c₂) =>
      match readExponent mode (whole.all (· == 0) && fraction.all (· == 0)) c₂ with
      | .error e => .error e
      | .ok (exponent, c₃) => .ok (⟨whole, fraction, exponent⟩, c₃)

theorem size_digitRun (bs : Bytes) (p : Position) : (digitRun bs p).2.size ≤ bs.length := by
  induction bs generalizing p with
  | nil => simp [digitRun, Cursor.size]
  | cons b r ih =>
    unfold digitRun
    split
    · exact Nat.le_succ_of_le (ih _)
    · simp [Cursor.size]

theorem size_readWhole {mode : Mode} {c d : Cursor} {ds : List Nat} (h : readWhole mode c = .ok (ds, d)) :
    d.size < c.size := by
  unfold readWhole at h
  split at h
  · cases h
  · rename_i b r hr
    have hs := Cursor.size_of_rest hr
    split at h
    · cases h
    · dsimp only at h
      split at h <;> cases h
      simp only [Cursor.size] at *
      omega
    · cases h
      have := size_digitRun r (c.position.after b)
      omega

theorem size_readFraction {mode : Mode} {c d : Cursor} {ds : List Nat} (h : readFraction mode c = .ok (ds, d)) :
    d.size ≤ c.size := by
  unfold readFraction at h
  split at h
  · cases h
    exact Nat.le_refl _
  · rename_i b r hr
    have hs := Cursor.size_of_rest hr
    dsimp only at h
    split at h
    · split at h
      · split at h <;> cases h
      · have := size_digitRun r (c.position.after b)
        simp only [Except.ok.injEq] at h
        rw [h] at this
        dsimp only at this
        omega
    · cases h
      exact Nat.le_refl _

theorem size_exponentRun {strict : Bool} {n : Nat} {bs : Bytes} {p : Position} {m : Nat} {d : Cursor}
    (h : exponentRun strict n bs p = .ok (m, d)) : d.size ≤ bs.length := by
  induction bs generalizing n p with
  | nil =>
    cases h
    simp [Cursor.size]
  | cons b r ih =>
    unfold exponentRun at h
    split at h
    · cases h
      simp [Cursor.size]
    · split at h
      · exact Nat.le_succ_of_le (ih h)
      · split at h
        · cases h
        · exact Nat.le_succ_of_le (ih h)

theorem size_exponentDigits {mode : Mode} {strict : Bool} {c d : Cursor} {n : Nat}
    (h : exponentDigits mode strict c = .ok (n, d)) : d.size ≤ c.size := by
  unfold exponentDigits at h
  split at h
  · cases h
  · rename_i b r hr
    have hs := Cursor.size_of_rest hr
    split at h
    · cases h
    · have := size_exponentRun h
      omega

theorem size_readExponent {mode : Mode} {zero : Bool} {c d : Cursor} {e : Option Int}
    (h : readExponent mode zero c = .ok (e, d)) : d.size ≤ c.size := by
  unfold readExponent at h
  split at h
  · cases h
    exact Nat.le_refl _
  · rename_i b r hr
    have hs := Cursor.size_of_rest hr
    split at h
    · dsimp only at h
      split at h
      · cases h
      · split at h
        · split at h
          · cases h
          · rename_i he
            cases h
            have := size_exponentDigits he
            simp only [Cursor.size, List.length_cons] at *
            omega
        · split at h
          · cases h
          · rename_i he
            cases h
            have := size_exponentDigits he
            split at this <;> simp only [Cursor.size, List.length_cons] at * <;> omega
    · cases h
      exact Nat.le_refl _

theorem size_read {mode : Mode} {c d : Cursor} {t : NumberText} (h : read mode c = .ok (t, d)) :
    d.size < c.size := by
  unfold read at h
  split at h
  · cases h
  · rename_i h₁
    split at h
    · cases h
    · rename_i h₂
      split at h
      · cases h
      · rename_i h₃
        cases h
        have := size_readWhole h₁
        have := size_readFraction h₂
        have := size_readExponent h₃
        omega

end NumberText

/-- The number whose digits are at the front, behind a minus sign where `negative`. -/
def readNumber (negative : Bool) (c : Cursor) : Except Fault (Number × Cursor) :=
  match NumberText.read .keep c with
  | .error e => .error e
  | .ok (t, d) =>
    match t.value? negative with
    | some n => .ok (n, d)
    | none => .error (malformed .numberOutOfRange d.position)

theorem size_readNumber {negative : Bool} {c d : Cursor} {n : Number} (h : readNumber negative c = .ok (n, d)) :
    d.size < c.size := by
  unfold readNumber at h
  split at h
  · cases h
  · rename_i ht
    split at h <;> cases h
    exact NumberText.size_read ht

end Json

end Fulfilment
