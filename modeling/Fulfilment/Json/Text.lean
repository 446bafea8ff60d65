import Fulfilment.Json.Cursor

/-!
# Strings of a document

What stands between two quotes. A string that is kept has its escapes resolved and must be text; one that is skipped
is only followed to its end, and what its escapes stand for does not matter.

* `Text.size_scan`: the string ends behind where it starts.
-/

namespace Fulfilment

namespace Json

/-- Whether what is read is wanted. -/
inductive Mode
  | keep
  | skip
  deriving DecidableEq

namespace Text

def hexByte? (b : UInt8) : Option Nat :=
  if 48 ≤ b ∧ b ≤ 57 then some (b.toNat - 48)
  else if 97 ≤ b ∧ b ≤ 102 then some (b.toNat - 87)
  else if 65 ≤ b ∧ b ≤ 70 then some (b.toNat - 55)
  else none

def hexCode? (a b d e : UInt8) : Option Nat := do
  let a ← hexByte? a
  let b ← hexByte? b
  let d ← hexByte? d
  let e ← hexByte? e
  return a * 4096 + b * 256 + d * 16 + e

/-- The four hexadecimal digits of an escape. -/
def hexEscape (c : Cursor) : Except Fault (Nat × Cursor) :=
  match c.rest with
  | a :: b :: d :: e :: r =>
    let p := (((c.position.after a).after b).after d).after e
    match hexCode? a b d e with
    | some n => .ok (n, ⟨r, p⟩)
    | none => .error (malformed .badEscape p)
  | short => .error (malformed .endInText (short.foldl Position.after c.position))

/-- The byte that a short escape stands for. -/
def shortEscape? (b : UInt8) : Option UInt8 :=
  if b = 34 ∨ b = 92 ∨ b = 47 then some b
  else if b = 98 then some 8
  else if b = 102 then some 12
  else if b = 110 then some 10
  else if b = 114 then some 13
  else if b = 116 then some 9
  else none

def isLowSurrogate (n : Nat) : Bool := 0xDC00 ≤ n && n ≤ 0xDFFF

def isHighSurrogate (n : Nat) : Bool := 0xD800 ≤ n && n ≤ 0xDBFF

/-- The second half of a pair of escapes for one character, of which the first half is `n`. -/
def lowHalf (n : Nat) (c : Cursor) : Except Fault (Bytes × Cursor) :=
  match c.rest with
  | [] => .error (malformed .endInText c.position)
  | b :: r =>
    let p := c.position.after b
    if b = 92 then
      match r with
      | [] => .error (malformed .endInText p)
      | u :: r' =>
        if u = 117 then
          match hexEscape ⟨r', p.after u⟩ with
          | .error e => .error e
          | .ok (m, d) =>
            if isLowSurrogate m then
              .ok (Utf8.encodeChar (Char.ofNat ((n - 0xD800) * 1024 + (m - 0xDC00) + 0x10000)), d)
            else .error (malformed .loneSurrogate d.position)
        else .error (malformed .openSurrogate (p.after u))
    else .error (malformed .openSurrogate p)

/-- The bytes of the character whose code follows. -/
def codeEscape (mode : Mode) (c : Cursor) : Except Fault (Bytes × Cursor) :=
  match hexEscape c with
  | .error e => .error e
  | .ok (n, d) =>
    match mode with
    | .skip => .ok ([], d)
    | .keep =>
      if isLowSurrogate n then .error (malformed .loneSurrogate d.position)
      else if isHighSurrogate n then lowHalf n d
      else .ok (Utf8.encodeChar (Char.ofNat n), d)

/-- What follows a backslash. -/
def escape (mode : Mode) (c : Cursor) : Except Fault (Bytes × Cursor) :=
  match c.rest with
  | [] => .error (malformed .endInText c.position)
  | b :: r =>
    let after : Cursor := ⟨r, c.position.after b⟩
    match shortEscape? b with
    | some x => .ok ([x], after)
    | none => if b = 117 then codeEscape mode after else .error (malformed .badEscape after.position)

theorem size_hexEscape {c d : Cursor} {n : Nat} (h : hexEscape c = .ok (n, d)) : d.size ≤ c.size := by
  unfold hexEscape at h
  split at h
  · rename_i hr
    dsimp only at h
    split at h
    · simp only [Except.ok.injEq, Prod.mk.injEq] at h
      obtain ⟨_, rfl⟩ := h
      have := congrArg List.length hr
      simp only [List.length_cons] at this
      simp only [Cursor.size]
      omega
    · cases h
  · cases h

theorem size_lowHalf {n : Nat} {c d : Cursor} {bs : Bytes} (h : lowHalf n c = .ok (bs, d)) : d.size ≤ c.size := by
  unfold lowHalf at h
  split at h
  · cases h
  · rename_i b r hr
    dsimp only at h
    split at h
    · split at h
      · cases h
      · split at h
        · split at h
          · cases h
          · rename_i he
            split at h
            · simp only [Except.ok.injEq, Prod.mk.injEq] at h
              obtain ⟨_, rfl⟩ := h
              have := size_hexEscape he
              simp only [Cursor.size, hr, List.length_cons] at *
              omega
            · cases h
        · cases h
    · cases h

theorem size_codeEscape {mode : Mode} {c d : Cursor} {bs : Bytes} (h : codeEscape mode c = .ok (bs, d)) :
    d.size ≤ c.size := by
  unfold codeEscape at h
  split at h
  · cases h
  · rename_i n d' he
    have h₁ := size_hexEscape he
    split at h
    · cases h
      exact h₁
    · split at h
      · cases h
      · split at h
        · exact Nat.le_trans (size_lowHalf h) h₁
        · cases h
          exact h₁

theorem size_escape {mode : Mode} {c d : Cursor} {bs : Bytes} (h : escape mode c = .ok (bs, d)) :
    d.size ≤ c.size := by
  unfold escape at h
  split at h
  · cases h
  · rename_i b r hr
    dsimp only at h
    have hs := Cursor.size_of_rest hr
    split at h
    · cases h
      simp only [Cursor.size] at *
      omega
    · split at h
      · have := size_codeEscape h
        simp only [Cursor.size] at *
        omega
      · cases h

/-- The bytes up to the closing quote, put onto `acc`, which holds those before in reverse. -/
def scanFrom (mode : Mode) (acc : Bytes) (c : Cursor) : Except Fault (Bytes × Cursor) :=
  match _hc : c.rest with
  | [] => .error (malformed .endInText c.position)
  | b :: r =>
    if b = 34 then .ok (acc.reverse, ⟨r, c.position.after b⟩)
    else if b = 92 then
      match _he : escape mode ⟨r, c.position.after b⟩ with
      | .error e => .error e
      | .ok (bs, d) => scanFrom mode (bs.reverse ++ acc) d
    else if b < 32 then
      .error (malformed .controlCharacter (if mode = .keep then c.position.after b else c.position))
    else scanFrom mode (b :: acc) ⟨r, c.position.after b⟩
  termination_by c.size
  decreasing_by
    · have := size_escape _he
      simp only [Cursor.size, _hc, List.length_cons] at *
      omega
    · simp only [Cursor.size, _hc, List.length_cons]
      omega

/-- The bytes up to the closing quote of a string whose opening quote has been taken. -/
def scan (mode : Mode) (c : Cursor) : Except Fault (Bytes × Cursor) := scanFrom mode [] c

theorem size_scanFrom {mode : Mode} {acc : Bytes} {c : Cursor} {bs : Bytes} {d : Cursor}
    (h : scanFrom mode acc c = .ok (bs, d)) : d.size < c.size := by
  fun_induction scanFrom mode acc c with
  | case1 => cases h
  | case2 acc c r hc =>
    cases h
    simp [Cursor.size, hc]
  | case3 => cases h
  | case4 acc c r xs _ hc _ he ih =>
    have h₁ := ih h
    have h₂ := size_escape he
    simp only [Cursor.size, hc, List.length_cons] at *
    omega
  | case5 => cases h
  | case6 acc c b r hc _ _ _ ih =>
    have h₁ := ih h
    simp only [Cursor.size, hc, List.length_cons] at *
    omega

theorem size_scan {mode : Mode} {c d : Cursor} {bs : Bytes} (h : scan mode c = .ok (bs, d)) : d.size < c.size :=
  size_scanFrom h

end Text

/-- The string whose opening quote has been taken. -/
def readText (c : Cursor) : Except Fault (String × Cursor) :=
  match Text.scan .keep c with
  | .error e => .error e
  | .ok (bs, d) =>
    match Utf8.toString? bs with
    | some s => .ok (s, d)
    | none => .error (malformed .badCodePoint d.position)

theorem size_readText {c d : Cursor} {s : String} (h : readText c = .ok (s, d)) : d.size < c.size := by
  unfold readText at h
  split at h
  · cases h
  · rename_i hs
    split at h <;> cases h
    exact Text.size_scan hs

end Json

end Fulfilment
