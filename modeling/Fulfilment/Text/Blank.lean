/-!
# Blanks

The characters that count as white space, and text without them at its ends.

* `trim_trim`: trimming again changes nothing.
-/

namespace Fulfilment

/-- The white space of Unicode. -/
def isBlank (c : Char) : Bool :=
  let n := c.toNat
  (0x9 ≤ n && n ≤ 0xD) || n == 0x20 || n == 0x85 || n == 0xA0 || n == 0x1680 || (0x2000 ≤ n && n ≤ 0x200A) ||
    n == 0x2028 || n == 0x2029 || n == 0x202F || n == 0x205F || n == 0x3000

namespace Blank

def trimStart (cs : List Char) : List Char := cs.dropWhile isBlank

def trimEnd (cs : List Char) : List Char := (cs.reverse.dropWhile isBlank).reverse

def trim (cs : List Char) : List Char := trimEnd (trimStart cs)

theorem trimEnd_cons {c : Char} (h : isBlank c = false) (cs : List Char) : trimEnd (c :: cs) = c :: trimEnd cs := by
  unfold trimEnd
  rw [List.reverse_cons, List.dropWhile_append]
  split
  · rename_i h'
    simp [List.isEmpty_iff.1 h', h]
  · simp

theorem trimStart_cons {c : Char} (h : isBlank c = false) (cs : List Char) : trimStart (c :: cs) = c :: cs := by
  simp [trimStart, h]

theorem trimStart_eq_nil_or (cs : List Char) :
    trimStart cs = [] ∨ ∃ c rest, trimStart cs = c :: rest ∧ isBlank c = false := by
  induction cs with
  | nil => exact .inl rfl
  | cons c rest ih =>
    cases h : isBlank c with
    | false => exact .inr ⟨c, rest, trimStart_cons h rest, h⟩
    | true => simpa [trimStart, h] using ih

theorem trimEnd_trimEnd (cs : List Char) : trimEnd (trimEnd cs) = trimEnd cs := by
  unfold trimEnd
  rw [List.reverse_reverse]
  rcases trimStart_eq_nil_or cs.reverse with h | ⟨c, rest, h, hc⟩
  · rw [trimStart] at h
    simp [h]
  · rw [trimStart] at h
    simp [h, hc]

theorem trim_trim (cs : List Char) : trim (trim cs) = trim cs := by
  unfold trim
  rcases trimStart_eq_nil_or cs with h | ⟨c, rest, h, hc⟩
  · rw [h]
    rfl
  · rw [h, trimEnd_cons hc, trimStart_cons hc, trimEnd_cons hc, trimEnd_trimEnd]

end Blank

/-- `s` without white space at its ends. -/
def trimmed (s : String) : String := String.ofList (Blank.trim s.toList)

/-- Nothing but white space. -/
def blank (s : String) : Bool := s.toList.all isBlank

end Fulfilment
