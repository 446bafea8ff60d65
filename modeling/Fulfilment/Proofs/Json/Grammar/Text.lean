import Fulfilment.Proofs.Json.Text
import Fulfilment.Proofs.Text.Utf8

/-!
# The grammar of strings

A string is a sequence of pieces between two quotes. A piece is a byte that stands for itself, or an escape that
stands for a character, and what all pieces stand for together must be text. These strings and no others are read
(`readText_eq_ok_iff`).
-/

namespace Fulfilment

theorem Utf8.eq_ofString_of_toString? {bs : Bytes} {s : String} (h : toString? bs = some s) : bs = ofString s := by
  obtain ⟨cs, hcs, rfl⟩ := Option.map_eq_some_iff.1 h
  rw [ofString, String.toList_ofList]
  exact decode_eq_some_iff.1 hcs

namespace Json

namespace Cursor

variable {c d e : Cursor} {text text' : Bytes}

/-- The `text` stands at `c`, and `d` is behind it. -/
def Passes (c : Cursor) (text : Bytes) (d : Cursor) : Prop := ∃ r p, c = ⟨text ++ r, p⟩ ∧ d = ⟨r, p.past text⟩

theorem Passes.refl (c : Cursor) : c.Passes [] c := ⟨c.rest, c.position, rfl, rfl⟩

theorem passes_byte (b : UInt8) (r : Bytes) (p : Position) : Passes ⟨b :: r, p⟩ [b] ⟨r, p.after b⟩ := ⟨r, p, rfl, rfl⟩

theorem Passes.trans (h : c.Passes text d) (h' : d.Passes text' e) : c.Passes (text ++ text') e := by
  obtain ⟨r, p, rfl, rfl⟩ := h
  obtain ⟨r', p', hd, rfl⟩ := h'
  obtain ⟨rfl, rfl⟩ := Cursor.mk.inj hd
  exact ⟨r', p, by rw [List.append_assoc], by rw [Position.past_append]⟩

end Cursor

namespace Text

/-- The character whose code is written as the halves `n` and `m`. -/
@[irreducible]
def paired (n m : Nat) : Char := Char.ofNat ((n - 0xD800) * 1024 + (m - 0xDC00) + 0x10000)

/-- What is written in a string, and the bytes that it stands for. -/
inductive Piece : Bytes → Bytes → Prop
  | plain {b : UInt8} (quote : b ≠ 34) (backslash : b ≠ 92) (control : ¬ b < 32) : Piece [b] [b]
  | short {b x : UInt8} (known : shortEscape? b = some x) : Piece [92, b] [x]
  | code {a b d e : UInt8} {n : Nat} (digits : hexCode? a b d e = some n) (low : isLowSurrogate n = false)
      (high : isHighSurrogate n = false) :
    Piece [92, 117, a, b, d, e] (Utf8.encodeChar (Char.ofNat n))
  /-- A character beyond the codes of four digits is written as two halves. -/
  | pair {a b d e a' b' d' e' : UInt8} {n m : Nat} (digits : hexCode? a b d e = some n)
      (high : isHighSurrogate n = true)
      (digits' : hexCode? a' b' d' e' = some m) (low : isLowSurrogate m = true) :
    Piece [92, 117, a, b, d, e, 92, 117, a', b', d', e']
      (Utf8.encodeChar (paired n m))

/-- Pieces one after another. -/
inductive Pieces : Bytes → Bytes → Prop
  | nil : Pieces [] []
  | cons {t bs ts bs' : Bytes} (first : Piece t bs) (rest : Pieces ts bs') : Pieces (t ++ ts) (bs ++ bs')

/-- What stands between the quotes of the string `s`. -/
def Spells (text : Bytes) (s : String) : Prop := Pieces text (Utf8.ofString s)

variable {c d : Cursor} {acc bs r t text : Bytes} {p : Position} {n : Nat}

/-! ### One piece -/

theorem hexEscape_eq_ok_iff : hexEscape ⟨r, p⟩ = .ok (n, d) ↔
    ∃ x y z w r', r = x :: y :: z :: w :: r' ∧ hexCode? x y z w = some n ∧ d = ⟨r', p.past [x, y, z, w]⟩ := by
  constructor
  · intro h
    unfold hexEscape at h
    split at h
    · rename_i x y z w r' hr
      obtain rfl : r = x :: y :: z :: w :: r' := hr
      dsimp only at h
      split at h
      · rename_i m hcode
        obtain ⟨rfl, rfl⟩ := Prod.mk.inj (Except.ok.inj h)
        exact ⟨x, y, z, w, r', rfl, hcode, rfl⟩
      · cases h
    · cases h
  · rintro ⟨x, y, z, w, r', rfl, hcode, rfl⟩
    simp [hexEscape, hcode]

theorem lowHalf_eq_ok_iff : lowHalf n c = .ok (bs, d) ↔
    ∃ x y z w r' p m, c = ⟨92 :: 117 :: x :: y :: z :: w :: r', p⟩ ∧
    hexCode? x y z w = some m ∧ isLowSurrogate m = true ∧
    bs = Utf8.encodeChar (paired n m) ∧ d = ⟨r', p.past [92, 117, x, y, z, w]⟩ := by
  constructor
  · intro h
    obtain ⟨rest, p⟩ := c
    unfold lowHalf at h
    split at h
    · cases h
    · rename_i b r hr
      obtain rfl : rest = b :: r := hr
      dsimp only at h
      split at h
      · rename_i hb
        subst hb
        split at h
        · cases h
        · rename_i u r'
          split at h
          · rename_i hu
            subst hu
            split at h
            · cases h
            · rename_i m d' hcode
              obtain ⟨x, y, z, w, r'', rfl, hdigits, rfl⟩ := hexEscape_eq_ok_iff.1 hcode
              split at h
              · rename_i hlow
                obtain ⟨hbs, rfl⟩ := Prod.mk.inj (Except.ok.inj h)
                refine ⟨x, y, z, w, r'', p, m, rfl, hdigits, hlow, hbs.symm.trans ?_, rfl⟩
                unfold paired
                rfl
              · cases h
          · cases h
      · cases h
  · rintro ⟨x, y, z, w, r', p, m, rfl, hdigits, hlow, rfl, rfl⟩
    unfold lowHalf
    dsimp only
    rw [if_pos rfl, if_pos rfl, hexEscape_eq_ok_iff.2 ⟨x, y, z, w, r', rfl, hdigits, rfl⟩]
    dsimp only
    refine (if_pos hlow).trans ?_
    unfold paired
    rfl

/-- What follows a backslash completes a piece. -/
theorem piece_of_escape (h : escape .keep ⟨r, p.after 92⟩ = .ok (bs, d)) :
    ∃ t r', 92 :: r = t ++ r' ∧ Piece t bs ∧ d = ⟨r', p.past t⟩ := by
  unfold escape at h
  split at h
  · cases h
  · rename_i b r' hr
    obtain rfl : r = b :: r' := hr
    dsimp only at h
    split at h
    · rename_i x hx
      cases h
      exact ⟨[92, b], r', rfl, .short hx, rfl⟩
    · split at h
      · rename_i hb
        subst hb
        unfold codeEscape at h
        split at h
        · cases h
        · rename_i n d' hcode
          obtain ⟨x, y, z, w, r'', rfl, hdigits, rfl⟩ := hexEscape_eq_ok_iff.1 hcode
          dsimp only at h
          split at h
          · cases h
          · rename_i hlow
            split at h
            · rename_i hhigh
              obtain ⟨x', y', z', w', r₂, p', m, hc, hdigits', hlow', rfl, rfl⟩ := lowHalf_eq_ok_iff.1 h
              obtain ⟨rfl, rfl⟩ := Cursor.mk.inj hc
              exact ⟨_, r₂, rfl, .pair hdigits hhigh hdigits' hlow', rfl⟩
            · rename_i hhigh
              obtain ⟨rfl, rfl⟩ := Prod.mk.inj (Except.ok.inj h)
              exact ⟨_, r'', rfl, .code hdigits (Bool.not_eq_true _ ▸ hlow) (Bool.not_eq_true _ ▸ hhigh), rfl⟩
      · cases h

/-- No half is both the first and the second. -/
theorem low_of_high (h : isHighSurrogate n = true) : isLowSurrogate n = false := by
  simp only [isHighSurrogate, isLowSurrogate, Bool.and_eq_true, Bool.and_eq_false_iff, decide_eq_true_eq,
    decide_eq_false_iff_not] at *
  omega

theorem codeEscape_keep (h : hexEscape c = .ok (n, d)) : codeEscape .keep c =
    if isLowSurrogate n then .error (malformed .loneSurrogate d.position)
    else if isHighSurrogate n then lowHalf n d
    else .ok (Utf8.encodeChar (Char.ofNat n), d) := by
  unfold codeEscape
  rw [h]

theorem codeEscape_skip (h : hexEscape c = .ok (n, d)) : codeEscape .skip c = .ok ([], d) := by
  unfold codeEscape
  rw [h]

theorem escape_code {mode : Mode} (h : codeEscape mode ⟨r, (p.after 92).after 117⟩ = .ok (bs, d)) :
    escape mode ⟨117 :: r, p.after 92⟩ = .ok (bs, d) := h

theorem scanFrom_piece (h : Piece t bs) :
    scanFrom .keep acc ⟨t ++ r, p⟩ = scanFrom .keep (bs.reverse ++ acc) ⟨r, p.past t⟩ := by
  cases h with
  | @plain b quote backslash control =>
    exact scanFrom_plain (List.forall_mem_singleton.2 ⟨quote, backslash, control⟩)
  | short known => exact scanFrom_shortEscape known
  | code digits low high => exact scanFrom_code digits low high
  | @pair x y z w x' y' z' w' n m digits high digits' low =>
    have hcode : hexEscape ⟨x :: y :: z :: w :: 92 :: 117 :: x' :: y' :: z' :: w' :: r, (p.after 92).after 117⟩ = _ :=
      hexEscape_eq_ok_iff.2 ⟨x, y, z, w, _, rfl, digits, rfl⟩
    refine scanFrom_escape (escape_code ((codeEscape_keep hcode).trans ?_))
    rw [low_of_high high, high]
    exact lowHalf_eq_ok_iff.2 ⟨x', y', z', w', r, _, m, rfl, digits', low, rfl, rfl⟩

/-! ### All pieces -/

theorem scanFrom_pieces (h : Pieces text bs) :
    scanFrom .keep acc ⟨text ++ 34 :: r, p⟩ = .ok (acc.reverse ++ bs, ⟨r, p.past (text ++ [34])⟩) := by
  induction h generalizing acc p with
  | nil =>
    rw [List.nil_append, List.nil_append, List.append_nil, scanFrom]
    rfl
  | cons first rest ih =>
    rw [List.append_assoc, scanFrom_piece first, ih]
    simp

theorem pieces_of_scanFrom (h : scanFrom .keep acc c = .ok (bs, d)) :
    ∃ text bs', Pieces text bs' ∧ c.Passes (text ++ [34]) d ∧ bs = acc.reverse ++ bs' := by
  -- the induction is on what is left of the text, of which each step takes one piece off
  fun_induction scanFrom .keep acc c with
  | case1 => cases h
  | case2 acc c r hc =>
    obtain ⟨rest, p⟩ := c
    subst hc
    cases h
    exact ⟨[], [], .nil, ⟨r, p, rfl, rfl⟩, (List.append_nil _).symm⟩
  | case3 => cases h
  | case4 acc c r bs₁ d₁ hc hne he ih =>
    obtain ⟨rest, p⟩ := c
    subst hc
    obtain ⟨t, r', hr, hpiece, rfl⟩ := piece_of_escape he
    obtain ⟨text, bs', hpieces, hpasses, rfl⟩ := ih h
    have hescape : Cursor.Passes ⟨92 :: r, p⟩ t ⟨r', p.past t⟩ := ⟨r', p, by rw [hr], rfl⟩
    refine ⟨t ++ text, bs₁ ++ bs', .cons hpiece hpieces, ?_, by simp⟩
    rw [List.append_assoc]
    exact hescape.trans hpasses
  | case5 => cases h
  | case6 acc c b r hc hquote hbackslash hcontrol ih =>
    obtain ⟨rest, p⟩ := c
    subst hc
    obtain ⟨text, bs', hpieces, hpasses, rfl⟩ := ih h
    exact ⟨[b] ++ text, [b] ++ bs', .cons (.plain hquote hbackslash hcontrol) hpieces,
      (Cursor.passes_byte b r p).trans hpasses, by simp⟩

end Text

/-- A string is read just when it is spelled up to a quote. -/
theorem readText_eq_ok_iff {c d : Cursor} {s : String} :
    readText c = .ok (s, d) ↔ ∃ text, Text.Spells text s ∧ c.Passes (text ++ [34]) d := by
  constructor
  · intro h
    unfold readText at h
    split at h
    · cases h
    · rename_i bs d' hscan
      obtain ⟨text, bs', hpieces, hpasses, rfl⟩ := Text.pieces_of_scanFrom hscan
      split at h <;> cases h
      rename_i hs
      refine ⟨text, ?_, hpasses⟩
      unfold Text.Spells
      rw [← Utf8.eq_ofString_of_toString? hs]
      exact hpieces
  · rintro ⟨text, hspells, r, p, rfl, rfl⟩
    unfold readText Text.scan
    rw [List.append_assoc, List.singleton_append, Text.scanFrom_pieces hspells]
    dsimp only
    rw [List.reverse_nil, List.nil_append, Utf8.toString_ofString]

end Json

end Fulfilment
