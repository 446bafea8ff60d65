import Fulfilment.Json.Printer
import Fulfilment.Json.Text
import Fulfilment.Proofs.Text.Utf8

/-!
# Strings written and read back

A string is written character by character, each as itself or as an escape, and read byte by byte. What one character
is written as is read as the bytes of that character (`scanFrom_escapeChar`), so every string is read back, whatever
it holds (`readText_escaped`).
-/

namespace Fulfilment

namespace Json

/-! ### Places -/

namespace Position

variable {p : Position} {b : UInt8} {bs bs' : Bytes}

/-- The place after the bytes `bs`. -/
def past (p : Position) (bs : Bytes) : Position := bs.foldl after p

@[simp] theorem past_nil : p.past [] = p := rfl

@[simp] theorem past_cons : p.past (b :: bs) = (p.after b).past bs := rfl

@[simp] theorem past_append : p.past (bs ++ bs') = (p.past bs).past bs' := List.foldl_append

end Position

namespace Text

variable {mode : Mode} {acc bs rest : Bytes} {p : Position}

/-! ### One character -/

theorem scanFrom_plain (h : ∀ b ∈ bs, b ≠ 34 ∧ b ≠ 92 ∧ ¬ b < 32) :
    scanFrom mode acc ⟨bs ++ rest, p⟩ = scanFrom mode (bs.reverse ++ acc) ⟨rest, p.past bs⟩ := by
  induction bs generalizing acc p with
  | nil => rfl
  | cons b bs ih =>
    obtain ⟨⟨hquote, hescape, hcontrol⟩, htail⟩ := List.forall_mem_cons.1 h
    rw [List.cons_append, scanFrom]
    simp only [if_neg hquote, if_neg hescape, if_neg hcontrol]
    rw [ih htail, List.reverse_cons, List.append_assoc]
    rfl

theorem scanFrom_escape {d : Cursor} (h : escape mode ⟨rest, p.after 92⟩ = .ok (bs, d)) :
    scanFrom mode acc ⟨92 :: rest, p⟩ = scanFrom mode (bs.reverse ++ acc) d := by
  rw [scanFrom]
  simp only [show (92 : UInt8) ≠ 34 by decide, if_false, if_true]
  split
  · rename_i he
    cases h.symm.trans he
  · rename_i he
    cases h.symm.trans he
    rfl

theorem scanFrom_shortEscape {b x : UInt8} (h : shortEscape? b = some x) :
    scanFrom mode acc ⟨92 :: b :: rest, p⟩ = scanFrom mode (x :: acc) ⟨rest, p.past [92, b]⟩ := by
  have hescape : escape mode ⟨b :: rest, p.after 92⟩ = .ok ([x], ⟨rest, (p.after 92).after b⟩) := by
    unfold escape
    dsimp only
    rw [h]
  exact scanFrom_escape hescape

/-- The escape of a code that is no half of a pair stands for its character. -/
theorem scanFrom_code {x y z w : UInt8} {n : Nat} (digits : hexCode? x y z w = some n)
    (low : isLowSurrogate n = false) (high : isHighSurrogate n = false) :
    scanFrom .keep acc ⟨[92, 117, x, y, z, w] ++ rest, p⟩ =
      scanFrom .keep ((Utf8.encodeChar (Char.ofNat n)).reverse ++ acc) ⟨rest, p.past [92, 117, x, y, z, w]⟩ := by
  have hescape : escape .keep ⟨[117, x, y, z, w] ++ rest, p.after 92⟩ =
      .ok (Utf8.encodeChar (Char.ofNat n), ⟨rest, (p.after 92).past [117, x, y, z, w]⟩) := by
    simp [escape, shortEscape?, codeEscape, hexEscape, digits, low, high]
  exact scanFrom_escape hescape

/-- The bytes of the four digits of `n`. -/
def hexBytes (n : Nat) : Bytes := Utf8.encode (hex4 n)

/-- The code that four bytes stand for. -/
def codeOf? : Bytes → Option Nat
  | [a, b, d, e] => hexCode? a b d e
  | _ => none

theorem hexBytes_of_lt {n : Nat} (h : n < 32) :
    ∃ a b d e, hexBytes n = [a, b, d, e] ∧ hexCode? a b d e = some n := by
  have all : ∀ n < 32, codeOf? (hexBytes n) = some n := by decide
  have hn := all n h
  unfold codeOf? at hn
  split at hn
  · rename_i heq
    exact ⟨_, _, _, _, heq, hn⟩
  · cases hn

theorem scanFrom_control {c : Char} (h : c.toNat < 32) :
    scanFrom .keep acc ⟨92 :: 117 :: (hexBytes c.toNat ++ rest), p⟩ =
      scanFrom .keep ((Utf8.encodeChar c).reverse ++ acc) ⟨rest, p.past (92 :: 117 :: hexBytes c.toNat)⟩ := by
  obtain ⟨x, y, z, w, hbytes, hcode⟩ := hexBytes_of_lt h
  have hlow : isLowSurrogate c.toNat = false := by
    simp only [isLowSurrogate, Bool.and_eq_false_iff, decide_eq_false_iff_not]
    omega
  have hhigh : isHighSurrogate c.toNat = false := by
    simp only [isHighSurrogate, Bool.and_eq_false_iff, decide_eq_false_iff_not]
    omega
  have hscan : scanFrom .keep acc ⟨[92, 117, x, y, z, w] ++ rest, p⟩ = _ := scanFrom_code hcode hlow hhigh
  rw [Char.ofNat_toNat] at hscan
  rw [hbytes]
  exact hscan

/-- What a character is written as is read as that character. -/
theorem scanFrom_escapeChar (c : Char) :
    scanFrom .keep acc ⟨Utf8.encode (escapeChar c) ++ rest, p⟩ =
      scanFrom .keep ((Utf8.encodeChar c).reverse ++ acc) ⟨rest, p.past (Utf8.encode (escapeChar c))⟩ := by
  unfold escapeChar
  by_cases hquote : c = '"'
  · subst hquote
    exact scanFrom_shortEscape (b := 34) rfl
  rw [if_neg hquote]
  by_cases hbackslash : c = '\\'
  · subst hbackslash
    exact scanFrom_shortEscape (b := 92) rfl
  rw [if_neg hbackslash]
  split
  · subst_vars
    exact scanFrom_shortEscape (b := 98) rfl
  split
  · subst_vars
    exact scanFrom_shortEscape (b := 102) rfl
  split
  · subst_vars
    exact scanFrom_shortEscape (b := 110) rfl
  split
  · subst_vars
    exact scanFrom_shortEscape (b := 114) rfl
  split
  · subst_vars
    exact scanFrom_shortEscape (b := 116) rfl
  split
  · rename_i hcontrol
    exact scanFrom_control hcontrol
  · rename_i hcontrol
    rw [Utf8.encode_cons, Utf8.encode_nil, List.append_nil]
    refine scanFrom_plain fun b hb => ?_
    have hne : ∀ d : Char, c ≠ d → c.toNat ≠ d.toNat := fun d hcd h =>
      hcd (Char.toNat_inj.1 h)
    have hquote' := hne '"' hquote
    have hbackslash' := hne '\\' hbackslash
    by_cases hsmall : c.toNat < 0x80
    · rw [Utf8.encodeChar_small hsmall, List.mem_singleton] at hb
      rw [hb]
      simp only [ne_eq, ← UInt8.toNat_inj, UInt8.lt_iff_toNat_lt, Utf8.toNat_byte (Nat.lt_trans hsmall (by decide))]
      exact ⟨hquote', hbackslash', hcontrol⟩
    · have := Utf8.le_of_mem_encodeChar (Nat.not_lt.1 hsmall) hb
      simp only [ne_eq, ← UInt8.toNat_inj, UInt8.lt_iff_toNat_lt]
      refine ⟨fun h => ?_, fun h => ?_, fun h => ?_⟩ <;> simp at h <;> omega

/-! ### All characters -/

theorem scanFrom_escaped (cs : List Char) :
    scanFrom .keep acc ⟨Utf8.encode (cs.flatMap escapeChar) ++ rest, p⟩ =
      scanFrom .keep ((Utf8.encode cs).reverse ++ acc) ⟨rest, p.past (Utf8.encode (cs.flatMap escapeChar))⟩ := by
  induction cs generalizing acc p with
  | nil => rfl
  | cons c cs ih =>
    rw [List.flatMap_cons, Utf8.encode_append, List.append_assoc, scanFrom_escapeChar, ih, Utf8.encode_cons,
      List.reverse_append, List.append_assoc, Position.past_append]

end Text

/-- The bytes of a string behind its opening quote. -/
def closedText (s : String) : Bytes := Utf8.encode (s.toList.flatMap escapeChar) ++ [34]

theorem encode_printText (s : String) : Utf8.encode (printText s) = 34 :: closedText s := by
  rw [printText, Utf8.encode_append, Utf8.encode_cons]
  rfl

theorem readText_closedText (s : String) (rest : Bytes) (p : Position) :
    readText ⟨closedText s ++ rest, p⟩ = .ok (s, ⟨rest, p.past (closedText s)⟩) := by
  have hscan : Text.scan .keep ⟨closedText s ++ rest, p⟩ =
      .ok (Utf8.ofString s, ⟨rest, p.past (closedText s)⟩) := by
    unfold Text.scan closedText
    rw [List.append_assoc, Text.scanFrom_escaped, List.append_nil, List.singleton_append, Text.scanFrom,
      Position.past_append]
    simp only [if_true, List.reverse_reverse]
    rfl
  unfold readText
  rw [hscan]
  dsimp only
  rw [Utf8.toString_ofString]

end Json

end Fulfilment
