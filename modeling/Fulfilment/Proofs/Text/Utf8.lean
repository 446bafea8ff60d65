import Fulfilment.Text.Utf8

/-!
# Well-formed text

Bytes are read as characters just when they are what these characters are written as (`decode_eq_some_iff`). So each
text has one written form: no character may be written longer than it need be, and nothing that is no character can be
written at all. The key fact is `eq_of_next`: a character that stands first was written there.

Text that is written before or behind bytes of any kind is read as it was written, and so are the bytes
(`decodeLossy_encode_append`, `decodeLossy_append_encode`): a character that breaks off takes nothing from what comes
next (`next_append`).

A character of one byte has its number for it, and no other character has such a byte (`le_of_mem_encodeChar`). Texts
stand in the order of the bytes that they are written as (`ofString_lt`).
-/

namespace Fulfilment

namespace Utf8

variable {b b₁ b₂ b₃ : UInt8} {c d : Char} {cs ds : List Char} {n : Nat}

@[simp] theorem encode_nil : encode [] = [] := rfl

@[simp] theorem encode_cons : encode (c :: cs) = encodeChar c ++ encode cs := rfl

@[simp] theorem encode_append : encode (cs ++ ds) = encode cs ++ encode ds := List.flatMap_append

theorem eq_byte (h : b.toNat = n) : b = byte n := by
  rw [← h, byte, UInt8.ofNat_toNat]

private theorem between_iff {lo hi : UInt8} :
    (decide (lo ≤ b) && decide (b ≤ hi)) = true ↔ lo.toNat ≤ b.toNat ∧ b.toNat ≤ hi.toNat := by
  rw [Bool.and_eq_true, decide_eq_true_eq, decide_eq_true_eq, UInt8.le_iff_toNat_le, UInt8.le_iff_toNat_le]

theorem isTail_iff : isTail b = true ↔ 0x80 ≤ b.toNat ∧ b.toNat ≤ 0xBF := between_iff

/-- The second byte keeps a character of three bytes from being too short, and from being a half of a pair. -/
theorem second3_bounds (h : second3 b b₁ = true) :
    (0x80 ≤ b₁.toNat ∧ b₁.toNat ≤ 0xBF) ∧ (b.toNat = 0xE0 → 0xA0 ≤ b₁.toNat) ∧
      (b.toNat = 0xED → b₁.toNat ≤ 0x9F) := by
  unfold second3 at h
  split at h
  · rename_i hb
    obtain ⟨hlo, hhi⟩ := between_iff.1 h
    have hlo' : 0xA0 ≤ b₁.toNat := hlo
    have hhi' : b₁.toNat ≤ 0xBF := hhi
    rw [hb]
    exact ⟨⟨by omega, hhi'⟩, fun _ => hlo', fun h => absurd h (by decide)⟩
  · rename_i hE0
    split at h
    · rename_i hb
      obtain ⟨hlo, hhi⟩ := between_iff.1 h
      have hlo' : 0x80 ≤ b₁.toNat := hlo
      have hhi' : b₁.toNat ≤ 0x9F := hhi
      rw [hb]
      exact ⟨⟨hlo', by omega⟩, fun h => absurd h (by decide), fun _ => hhi'⟩
    · rename_i hED
      refine ⟨isTail_iff.1 h, fun h => absurd (eq_byte h) hE0, fun h => absurd (eq_byte h) hED⟩

/-- The second byte keeps a character of four bytes from being too short, and from lying beyond the last character. -/
theorem second4_bounds (h : second4 b b₁ = true) :
    (0x80 ≤ b₁.toNat ∧ b₁.toNat ≤ 0xBF) ∧ (b.toNat = 0xF0 → 0x90 ≤ b₁.toNat) ∧
      (b.toNat = 0xF4 → b₁.toNat ≤ 0x8F) := by
  unfold second4 at h
  split at h
  · rename_i hb
    obtain ⟨hlo, hhi⟩ := between_iff.1 h
    have hlo' : 0x90 ≤ b₁.toNat := hlo
    have hhi' : b₁.toNat ≤ 0xBF := hhi
    rw [hb]
    exact ⟨⟨by omega, hhi'⟩, fun _ => hlo', fun h => absurd h (by decide)⟩
  · rename_i hF0
    split at h
    · rename_i hb
      obtain ⟨hlo, hhi⟩ := between_iff.1 h
      have hlo' : 0x80 ≤ b₁.toNat := hlo
      have hhi' : b₁.toNat ≤ 0x8F := hhi
      rw [hb]
      exact ⟨⟨hlo', by omega⟩, fun h => absurd h (by decide), fun _ => hhi'⟩
    · rename_i hF4
      refine ⟨isTail_iff.1 h, fun h => absurd (eq_byte h) hF0, fun h => absurd (eq_byte h) hF4⟩

/-! ### How characters are written -/

theorem toNat_ofNat (h : n < 0xD800 ∨ 0xDFFF < n ∧ n < 0x110000) : (Char.ofNat n).toNat = n := by
  rw [Char.ofNat, dif_pos h]
  rfl

theorem encodeChar_one (h : b.toNat < 0x80) : encodeChar (Char.ofNat b.toNat) = [b] := by
  rw [encodeChar, toNat_ofNat (by omega), if_pos h, ← eq_byte rfl]

theorem encodeChar_two (hlo : 0xC2 ≤ b.toNat) (hhi : b.toNat ≤ 0xDF) (h₁ : isTail b₁ = true) :
    encodeChar (Char.ofNat ((b.toNat - 0xC0) * 64 + bits b₁)) = [b, b₁] := by
  obtain ⟨hlo₁, hhi₁⟩ := isTail_iff.1 h₁
  unfold bits
  rw [encodeChar, toNat_ofNat (by omega), if_neg (by omega), if_pos (by omega), ← eq_byte (b := b) (by omega),
    ← eq_byte (b := b₁) (by omega)]

theorem encodeChar_three (hlo : 0xE0 ≤ b.toNat) (hhi : b.toNat ≤ 0xEF) (h₁ : second3 b b₁ = true)
    (h₂ : isTail b₂ = true) :
    encodeChar (Char.ofNat ((b.toNat - 0xE0) * 4096 + bits b₁ * 64 + bits b₂)) = [b, b₁, b₂] := by
  obtain ⟨⟨hlo₁, hhi₁⟩, hshort, hpair⟩ := second3_bounds h₁
  obtain ⟨hlo₂, hhi₂⟩ := isTail_iff.1 h₂
  unfold bits
  rw [encodeChar, toNat_ofNat (by omega), if_neg (by omega), if_neg (by omega), if_pos (by omega),
    ← eq_byte (b := b) (by omega), ← eq_byte (b := b₁) (by omega), ← eq_byte (b := b₂) (by omega)]

theorem encodeChar_four (hlo : 0xF0 ≤ b.toNat) (hhi : b.toNat ≤ 0xF4) (h₁ : second4 b b₁ = true)
    (h₂ : isTail b₂ = true) (h₃ : isTail b₃ = true) :
    encodeChar (Char.ofNat ((b.toNat - 0xF0) * 262144 + bits b₁ * 4096 + bits b₂ * 64 + bits b₃)) =
      [b, b₁, b₂, b₃] := by
  obtain ⟨⟨hlo₁, hhi₁⟩, hshort, hbeyond⟩ := second4_bounds h₁
  obtain ⟨hlo₂, hhi₂⟩ := isTail_iff.1 h₂
  obtain ⟨hlo₃, hhi₃⟩ := isTail_iff.1 h₃
  unfold bits
  rw [encodeChar, toNat_ofNat (by omega), if_neg (by omega), if_neg (by omega), if_neg (by omega),
    ← eq_byte (b := b) (by omega), ← eq_byte (b := b₁) (by omega), ← eq_byte (b := b₂) (by omega),
    ← eq_byte (b := b₃) (by omega)]

/-! ### What is read was written -/

/-- The character that stands first was written there. -/
theorem eq_of_next {rest r : Bytes} {c : Char} (h : next b rest = (some c, r)) : b :: rest = encodeChar c ++ r := by
  unfold next at h
  split at h
  · rename_i hb
    cases h
    rw [encodeChar_one (UInt8.lt_iff_toNat_lt.1 hb)]
    rfl
  split at h
  · rename_i hb
    obtain ⟨hlo, hhi⟩ := between_iff.1 hb
    split at h
    · split at h
      · rename_i h₁
        cases h
        rw [encodeChar_two hlo hhi h₁]
        rfl
      · cases h
    · cases h
  split at h
  · rename_i hb
    obtain ⟨hlo, hhi⟩ := between_iff.1 hb
    repeat split at h
    any_goals cases h
    rename_i h₁ _ _ h₂
    rw [encodeChar_three hlo hhi h₁ h₂]
    rfl
  split at h
  · rename_i hb
    obtain ⟨hlo, hhi⟩ := between_iff.1 hb
    repeat split at h
    any_goals cases h
    rename_i h₁ _ _ h₂ _ _ h₃
    rw [encodeChar_four hlo hhi h₁ h₂ h₃]
    rfl
  · cases h

theorem eq_of_decodeFrom {acc cs : List Char} {bs : Bytes} (h : decodeFrom acc bs = some cs) :
    ∃ cs', cs = acc.reverse ++ cs' ∧ bs = encode cs' := by
  fun_induction decodeFrom acc bs with
  | case1 acc =>
    cases h
    exact ⟨[], (List.append_nil _).symm, rfl⟩
  | case2 acc b rest c r hn ih =>
    obtain ⟨cs', rfl, rfl⟩ := ih h
    refine ⟨c :: cs', by simp, ?_⟩
    rw [eq_of_next hn]
    rfl
  | case3 => cases h

/-- Bytes are well-formed text just when they are what some characters are written as. -/
theorem decode_eq_some_iff {bs : Bytes} {cs : List Char} : decode? bs = some cs ↔ bs = encode cs := by
  constructor
  · intro h
    obtain ⟨cs', rfl, hbs⟩ := eq_of_decodeFrom h
    exact hbs
  · rintro rfl
    exact decode_encode cs

/-- Texts that are written alike are the same. -/
theorem encode_inj {cs cs' : List Char} (h : encode cs = encode cs') : cs = cs' := by
  have := decode_encode cs
  rw [h, decode_encode] at this
  exact (Option.some.inj this).symm

/-! ### The bytes of a character -/

theorem encodeChar_small (h : c.toNat < 0x80) : encodeChar c = [byte c.toNat] := by
  unfold encodeChar
  exact if_pos h

theorem toNat_byte_mod (n : Nat) : (byte n).toNat = n % 256 := UInt8.toNat_ofNat'

theorem toNat_lt (c : Char) : c.toNat < 0x110000 := by
  rcases c.valid with h | ⟨-, h⟩
  · exact Nat.lt_trans h (by decide)
  · exact h

/-- Beyond the characters of one byte, every byte is marked as one of several. -/
theorem le_of_mem_encodeChar (h : 0x80 ≤ c.toNat) (hb : b ∈ encodeChar c) : 0x80 ≤ b.toNat := by
  have hc := toNat_lt c
  unfold encodeChar at hb
  dsimp only at hb
  rw [if_neg (by omega)] at hb
  split at hb
  · simp only [List.mem_cons, List.not_mem_nil, or_false] at hb
    rcases hb with rfl | rfl <;> rw [toNat_byte_mod] <;> omega
  · split at hb
    · simp only [List.mem_cons, List.not_mem_nil, or_false] at hb
      rcases hb with rfl | rfl | rfl <;> rw [toNat_byte_mod] <;> omega
    · simp only [List.mem_cons, List.not_mem_nil, or_false] at hb
      rcases hb with rfl | rfl | rfl | rfl <;> rw [toNat_byte_mod] <;> omega

/-! ### The order of texts -/

theorem byte_lt_iff {m n : Nat} (hm : m < 256) (hn : n < 256) : byte m < byte n ↔ m < n := by
  rw [UInt8.lt_iff_toNat_lt, toNat_byte hm, toNat_byte hn]

/-- Of two characters the smaller is written by the smaller bytes, whatever follows. -/
theorem encodeChar_append_lt (h : c < d) (bs bs' : Bytes) : encodeChar c ++ bs < encodeChar d ++ bs' := by
  have hlt : c.toNat < d.toNat := UInt32.lt_iff_toNat_lt.1 h
  have hd := toNat_lt d
  unfold encodeChar
  generalize c.toNat = m at hlt
  generalize d.toNat = n at hlt hd
  dsimp only
  -- one case for each two lengths: the first bytes that differ are in the order of the numbers
  repeat' split
  all_goals
    simp (disch := omega) only [List.cons_append, List.nil_append, List.cons_lt_cons_iff, byte_lt_iff, byte_inj]
    omega

theorem encode_lt (h : cs < ds) : encode cs < encode ds := by
  induction cs generalizing ds with
  | nil =>
    cases ds with
    | nil => exact absurd h (List.not_lt_nil [])
    | cons d ds =>
      obtain ⟨b, r, hb, -⟩ := next_encodeChar d []
      rw [encode_cons, hb]
      exact List.nil_lt_cons b _
  | cons c cs ih =>
    cases ds with
    | nil => exact absurd h (List.not_lt_nil _)
    | cons d ds =>
      rw [encode_cons, encode_cons]
      rcases List.cons_lt_cons_iff.1 h with hlt | ⟨rfl, hlt⟩
      · exact encodeChar_append_lt hlt _ _
      · exact List.append_left_lt (ih hlt)

theorem ofString_lt {s t : String} (h : s < t) : ofString s < ofString t := encode_lt (String.lt_iff.1 h)

/-! ### Broken text -/

theorem decodeLossyFrom_append (acc acc' : List Char) (bs : Bytes) :
    decodeLossyFrom (acc ++ acc') bs = acc'.reverse ++ decodeLossyFrom acc bs := by
  induction acc, bs using decodeLossyFrom.induct with
  | case1 acc =>
    unfold decodeLossyFrom
    exact List.reverse_append
  | case2 acc b rest ih =>
    unfold decodeLossyFrom
    exact ih

theorem decodeLossy_nil : decodeLossy [] = [] := by
  unfold decodeLossy decodeLossyFrom
  rfl

theorem decodeLossy_cons (b : UInt8) (rest : Bytes) :
    decodeLossy (b :: rest) = (next b rest).1.getD replacement :: decodeLossy (next b rest).2 := by
  unfold decodeLossy
  rw [decodeLossyFrom]
  exact decodeLossyFrom_append [] [_] _

theorem isTail_of_second3 (h : second3 b b₁ = true) : isTail b₁ = true := isTail_iff.2 (second3_bounds h).1

theorem isTail_of_second4 (h : second4 b b₁ = true) : isTail b₁ = true := isTail_iff.2 (second4_bounds h).1

/-- A character that breaks off ends where one that is whole begins. -/
theorem next_append (b : UInt8) (rest : Bytes) {ds : Bytes} (h : ∀ x ∈ ds.head?, isTail x = false) :
    next b (rest ++ ds) = ((next b rest).1, (next b rest).2 ++ ds) := by
  cases ds with
  | nil => simp
  | cons x ds =>
    have hx : isTail x = false := h x rfl
    -- a byte that continues no character is no second byte either
    have h₃ : second3 b x = false := by
      rw [Bool.eq_false_iff]
      intro h'
      rw [isTail_of_second3 h'] at hx
      cases hx
    have h₄ : second4 b x = false := by
      rw [Bool.eq_false_iff]
      intro h'
      rw [isTail_of_second4 h'] at hx
      cases hx
    unfold next
    -- a character ends at the third byte behind its first at the latest, so what is appended is seen in three cases
    -- only
    rcases rest with _ | ⟨c, _ | ⟨d, _ | ⟨e, r⟩⟩⟩
    all_goals
      simp only [List.nil_append, List.cons_append, hx, h₃, h₄, Bool.false_eq_true, if_false]
      repeat' split
    all_goals rfl

/-- A character is not begun by a byte that continues one. -/
theorem next_of_isTail (h : isTail b = true) (rest : Bytes) : next b rest = (none, rest) := by
  obtain ⟨hlo, hhi⟩ := isTail_iff.1 h
  have below : ¬ b < 0x80 := by
    rw [UInt8.lt_iff_toNat_lt]
    exact Nat.not_lt.2 hlo
  have above {lo hi : UInt8} (hlo : 0xBF < lo.toNat) : (decide (lo ≤ b) && decide (b ≤ hi)) ≠ true := by
    rw [Ne, between_iff]
    omega
  unfold next
  rw [if_neg below, if_neg (above (by decide)), if_neg (above (by decide)), if_neg (above (by decide))]

theorem isTail_head_encode (cs : List Char) : ∀ b ∈ (encode cs).head?, isTail b = false := by
  cases cs with
  | nil => simp [encode]
  | cons c cs =>
    obtain ⟨b, r, hb, hn⟩ := next_encodeChar c []
    have hhead : (encode (c :: cs)).head? = some b := by simp [encode, hb]
    intro b' hb'
    rw [hhead, Option.mem_some_iff] at hb'
    rw [← hb', Bool.eq_false_iff]
    intro h
    rw [next_of_isTail h] at hn
    cases hn

theorem decodeLossy_encode_append (cs : List Char) (bs : Bytes) :
    decodeLossy (encode cs ++ bs) = cs ++ decodeLossy bs := by
  induction cs with
  | nil => rfl
  | cons c cs ih =>
    obtain ⟨b, r, hb, hn⟩ := next_encodeChar c (encode cs ++ bs)
    have hcons : encode (c :: cs) ++ bs = b :: (r ++ (encode cs ++ bs)) := by simp [encode, hb]
    rw [hcons, decodeLossy_cons, hn, ih]
    rfl

/-- What is written behind any bytes, even broken ones, is read as it was written. -/
theorem decodeLossy_append_encode (cs : List Char) : (bs : Bytes) →
    decodeLossy (bs ++ encode cs) = decodeLossy bs ++ cs
  | [] => by
    have h := decodeLossy_encode_append cs []
    rw [List.append_nil] at h
    rw [List.nil_append, h, decodeLossy_nil, List.append_nil, List.nil_append]
  | b :: rest => by
    rw [List.cons_append, decodeLossy_cons, decodeLossy_cons, next_append b rest (isTail_head_encode cs),
      decodeLossy_append_encode cs (next b rest).2, List.cons_append]
  termination_by bs => bs.length
  decreasing_by
    exact Nat.lt_succ_of_le (next_length b rest)

end Utf8

end Fulfilment
