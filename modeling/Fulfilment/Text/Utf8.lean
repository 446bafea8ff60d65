/-!
# UTF-8

Characters as bytes and back. `encode` writes each character in its shortest form; `next` takes the first character
off a byte string or, where none stands there, the longest start of one, so that `decode?` refuses broken text and
`decodeLossy` puts one replacement character for each broken start.

* `decode_encode`: what `encode` writes, `decode?` reads back.
-/

namespace Fulfilment

/-- A byte string. -/
abbrev Bytes := List UInt8

namespace Utf8

/-- The byte with the value `n`, for `n` below 256. -/
def byte (n : Nat) : UInt8 := UInt8.ofNat n

def encodeChar (c : Char) : Bytes :=
  let n := c.toNat
  if n < 0x80 then [byte n]
  else if n < 0x800 then [byte (0xC0 + n / 64), byte (0x80 + n % 64)]
  else if n < 0x10000 then [byte (0xE0 + n / 4096), byte (0x80 + n / 64 % 64), byte (0x80 + n % 64)]
  else [byte (0xF0 + n / 262144), byte (0x80 + n / 4096 % 64), byte (0x80 + n / 64 % 64), byte (0x80 + n % 64)]

def encode (cs : List Char) : Bytes := cs.flatMap encodeChar

def ofString (s : String) : Bytes := encode s.toList

/-- The bytes that may continue a character. -/
def isTail (b : UInt8) : Bool := 0x80 ≤ b && b ≤ 0xBF

/-- The bytes that may stand second after `b` in a character of three bytes. -/
def second3 (b c : UInt8) : Bool :=
  if b = 0xE0 then 0xA0 ≤ c && c ≤ 0xBF
  else if b = 0xED then 0x80 ≤ c && c ≤ 0x9F
  else isTail c

/-- The bytes that may stand second after `b` in a character of four bytes. -/
def second4 (b c : UInt8) : Bool :=
  if b = 0xF0 then 0x90 ≤ c && c ≤ 0xBF
  else if b = 0xF4 then 0x80 ≤ c && c ≤ 0x8F
  else isTail c

/-- The six payload bits of a continuation byte. -/
def bits (b : UInt8) : Nat := b.toNat % 64

/-- The first character of `b :: rest` and what follows it; without a character, what follows the longest start of
one. -/
def next (b : UInt8) (rest : Bytes) : Option Char × Bytes :=
  if b < 0x80 then (some (Char.ofNat b.toNat), rest)
  else if 0xC2 ≤ b && b ≤ 0xDF then
    match rest with
    | c :: r => if isTail c then (some (Char.ofNat ((b.toNat - 0xC0) * 64 + bits c)), r) else (none, rest)
    | [] => (none, [])
  else if 0xE0 ≤ b && b ≤ 0xEF then
    match rest with
    | c :: r =>
      if second3 b c then
        match r with
        | d :: r' =>
          if isTail d then (some (Char.ofNat ((b.toNat - 0xE0) * 4096 + bits c * 64 + bits d)), r') else (none, r)
        | [] => (none, [])
      else (none, rest)
    | [] => (none, [])
  else if 0xF0 ≤ b && b ≤ 0xF4 then
    match rest with
    | c :: r =>
      if second4 b c then
        match r with
        | d :: r' =>
          if isTail d then
            match r' with
            | e :: r'' =>
              if isTail e then
                (some (Char.ofNat ((b.toNat - 0xF0) * 262144 + bits c * 4096 + bits d * 64 + bits e)), r'')
              else (none, r')
            | [] => (none, [])
          else (none, r)
        | [] => (none, [])
      else (none, rest)
    | [] => (none, [])
  else (none, rest)

theorem next_length (b : UInt8) (rest : Bytes) : (next b rest).2.length ≤ rest.length := by
  unfold next
  repeat' split
  all_goals simp_all
  all_goals omega

/-- Reads characters onto `acc`, which holds those before in reverse. -/
def decodeFrom (acc : List Char) : Bytes → Option (List Char)
  | [] => some acc.reverse
  | b :: rest =>
    match _h : next b rest with
    | (some c, r) => decodeFrom (c :: acc) r
    | (none, _) => none
  termination_by bs => bs.length
  decreasing_by
    have := next_length b rest
    rw [_h] at this
    exact Nat.lt_succ_of_le this

/-- The characters of well-formed text. -/
def decode? (bs : Bytes) : Option (List Char) := decodeFrom [] bs

def toString? (bs : Bytes) : Option String := (decode? bs).map String.ofList

/-- Stands where text is broken. -/
def replacement : Char := Char.ofNat 0xFFFD

def decodeLossyFrom (acc : List Char) : Bytes → List Char
  | [] => acc.reverse
  | b :: rest => decodeLossyFrom ((next b rest).1.getD replacement :: acc) (next b rest).2
  termination_by bs => bs.length
  decreasing_by
    exact Nat.lt_succ_of_le (next_length b rest)

/-- The characters of any bytes, one `replacement` for each broken start of a character. -/
def decodeLossy (bs : Bytes) : List Char := decodeLossyFrom [] bs

/-! ### Reading what was written -/

theorem toNat_byte {n : Nat} (h : n < 256) : (byte n).toNat = n := by
  simp [byte, Nat.mod_eq_of_lt h]

theorem byte_le_iff {m n : Nat} (hm : m < 256) (hn : n < 256) : byte m ≤ byte n ↔ m ≤ n := by
  rw [UInt8.le_iff_toNat_le, toNat_byte hm, toNat_byte hn]

theorem byte_inj {m n : Nat} (hm : m < 256) (hn : n < 256) : byte m = byte n ↔ m = n := by
  rw [← UInt8.toNat_inj, toNat_byte hm, toNat_byte hn]

theorem isTail_byte {n : Nat} (h : n < 64) : isTail (byte (0x80 + n)) = true := by
  have h₁ := (byte_le_iff (m := 0x80) (n := 0x80 + n) (by omega) (by omega)).2 (by omega)
  have h₂ := (byte_le_iff (m := 0x80 + n) (n := 0xBF) (by omega) (by omega)).2 (by omega)
  exact Bool.and_eq_true_iff.2 ⟨decide_eq_true h₁, decide_eq_true h₂⟩

theorem bits_byte {n : Nat} (h : n < 64) : bits (byte (0x80 + n)) = n := by
  rw [bits, toNat_byte (by omega)]
  omega

theorem second3_byte {m n : Nat} (hm : m < 16) (hn : n < 64) (h₀ : m = 0 → 32 ≤ n) (h₁ : m = 13 → n < 32) :
    second3 (byte (0xE0 + m)) (byte (0x80 + n)) = true := by
  have e₀ := byte_inj (m := 0xE0 + m) (n := 0xE0) (by omega) (by omega)
  have e₁ := byte_inj (m := 0xE0 + m) (n := 0xED) (by omega) (by omega)
  unfold second3
  split
  · rename_i h
    have := h₀ (by have := e₀.1 h; omega)
    exact Bool.and_eq_true_iff.2
      ⟨decide_eq_true ((byte_le_iff (m := 0xA0) (by omega) (by omega)).2 (by omega)),
        decide_eq_true ((byte_le_iff (n := 0xBF) (by omega) (by omega)).2 (by omega))⟩
  · split
    · rename_i h
      have := h₁ (by have := e₁.1 h; omega)
      exact Bool.and_eq_true_iff.2
        ⟨decide_eq_true ((byte_le_iff (m := 0x80) (by omega) (by omega)).2 (by omega)),
          decide_eq_true ((byte_le_iff (n := 0x9F) (by omega) (by omega)).2 (by omega))⟩
    · exact isTail_byte hn

theorem second4_byte {m n : Nat} (hm : m < 5) (hn : n < 64) (h₀ : m = 0 → 16 ≤ n) (h₁ : m = 4 → n < 16) :
    second4 (byte (0xF0 + m)) (byte (0x80 + n)) = true := by
  have e₀ := byte_inj (m := 0xF0 + m) (n := 0xF0) (by omega) (by omega)
  have e₁ := byte_inj (m := 0xF0 + m) (n := 0xF4) (by omega) (by omega)
  unfold second4
  split
  · rename_i h
    have := h₀ (by have := e₀.1 h; omega)
    exact Bool.and_eq_true_iff.2
      ⟨decide_eq_true ((byte_le_iff (m := 0x90) (by omega) (by omega)).2 (by omega)),
        decide_eq_true ((byte_le_iff (n := 0xBF) (by omega) (by omega)).2 (by omega))⟩
  · split
    · rename_i h
      have := h₁ (by have := e₁.1 h; omega)
      exact Bool.and_eq_true_iff.2
        ⟨decide_eq_true ((byte_le_iff (m := 0x80) (by omega) (by omega)).2 (by omega)),
          decide_eq_true ((byte_le_iff (n := 0x8F) (by omega) (by omega)).2 (by omega))⟩
    · exact isTail_byte hn

theorem byte_between (lo hi : Nat) {m : Nat} (hlo : lo ≤ m) (hhi : m ≤ hi) (h : hi < 256) :
    (decide (byte lo ≤ byte m) && decide (byte m ≤ byte hi)) = true :=
  Bool.and_eq_true_iff.2
    ⟨decide_eq_true ((byte_le_iff (by omega) (by omega)).2 hlo),
      decide_eq_true ((byte_le_iff (by omega) (by omega)).2 hhi)⟩

theorem byte_not_between (lo hi : Nat) {m : Nat} (hhi : hi < m) (h : m < 256) :
    (decide (byte lo ≤ byte m) && decide (byte m ≤ byte hi)) = false := by
  have : ¬ byte m ≤ byte hi := fun h' => by
    have := (byte_le_iff h (by omega)).1 h'
    omega
  simp [this]

theorem not_byte_lt {m n : Nat} (hm : n ≤ m) (h : m < 256) : ¬ byte m < byte n := by
  rw [UInt8.lt_iff_toNat_lt, toNat_byte h, toNat_byte (by omega)]
  omega

theorem next_byte1 {n : Nat} (h : n < 0x80) (rest : Bytes) : next (byte n) rest = (some (Char.ofNat n), rest) := by
  have h' : byte n < 0x80 := by
    rw [UInt8.lt_iff_toNat_lt, toNat_byte (by omega)]
    exact h
  simp [next, h', toNat_byte (show n < 256 by omega)]

theorem next_byte2 {a b : Nat} (ha : 2 ≤ a) (ha' : a < 32) (hb : b < 64) (rest : Bytes) :
    next (byte (0xC0 + a)) (byte (0x80 + b) :: rest) = (some (Char.ofNat (a * 64 + b)), rest) := by
  have h₀ : ¬ byte (0xC0 + a) < 0x80 := not_byte_lt (n := 0x80) (by omega) (by omega)
  have h₁ : (0xC2 ≤ byte (0xC0 + a) && byte (0xC0 + a) ≤ 0xDF) = true :=
    byte_between 0xC2 0xDF (by omega) (by omega) (by omega)
  simp only [next, if_neg h₀, if_pos h₁, isTail_byte hb, if_true, bits_byte hb,
    toNat_byte (show 0xC0 + a < 256 by omega), Nat.add_sub_cancel_left]

theorem next_byte3 {a b c : Nat} (ha : a < 16) (hb : b < 64) (hc : c < 64) (h₀ : a = 0 → 32 ≤ b)
    (h₁ : a = 13 → b < 32) (rest : Bytes) :
    next (byte (0xE0 + a)) (byte (0x80 + b) :: byte (0x80 + c) :: rest) =
      (some (Char.ofNat (a * 4096 + b * 64 + c)), rest) := by
  have g₀ : ¬ byte (0xE0 + a) < 0x80 := not_byte_lt (n := 0x80) (by omega) (by omega)
  have g₁ : (0xC2 ≤ byte (0xE0 + a) && byte (0xE0 + a) ≤ 0xDF) = false :=
    byte_not_between 0xC2 0xDF (by omega) (by omega)
  have g₂ : (0xE0 ≤ byte (0xE0 + a) && byte (0xE0 + a) ≤ 0xEF) = true :=
    byte_between 0xE0 0xEF (by omega) (by omega) (by omega)
  simp only [next, if_neg g₀, g₁, if_pos g₂, second3_byte ha hb h₀ h₁, isTail_byte hc, if_true, bits_byte hb,
    bits_byte hc, toNat_byte (show 0xE0 + a < 256 by omega), Nat.add_sub_cancel_left, Bool.false_eq_true, if_false]

theorem next_byte4 {a b c d : Nat} (ha : a < 5) (hb : b < 64) (hc : c < 64) (hd : d < 64) (h₀ : a = 0 → 16 ≤ b)
    (h₁ : a = 4 → b < 16) (rest : Bytes) :
    next (byte (0xF0 + a)) (byte (0x80 + b) :: byte (0x80 + c) :: byte (0x80 + d) :: rest) =
      (some (Char.ofNat (a * 262144 + b * 4096 + c * 64 + d)), rest) := by
  have g₀ : ¬ byte (0xF0 + a) < 0x80 := not_byte_lt (n := 0x80) (by omega) (by omega)
  have g₁ : (0xC2 ≤ byte (0xF0 + a) && byte (0xF0 + a) ≤ 0xDF) = false :=
    byte_not_between 0xC2 0xDF (by omega) (by omega)
  have g₂ : (0xE0 ≤ byte (0xF0 + a) && byte (0xF0 + a) ≤ 0xEF) = false :=
    byte_not_between 0xE0 0xEF (by omega) (by omega)
  have g₃ : (0xF0 ≤ byte (0xF0 + a) && byte (0xF0 + a) ≤ 0xF4) = true :=
    byte_between 0xF0 0xF4 (by omega) (by omega) (by omega)
  simp only [next, if_neg g₀, g₁, g₂, if_pos g₃, second4_byte ha hb h₀ h₁, isTail_byte hc, isTail_byte hd, if_true,
    bits_byte hb, bits_byte hc, bits_byte hd, toNat_byte (show 0xF0 + a < 256 by omega), Nat.add_sub_cancel_left,
    Bool.false_eq_true, if_false]

/-- The first character of encoded text is the one that was encoded first. -/
theorem next_encodeChar (c : Char) (rest : Bytes) :
    ∃ b r, encodeChar c = b :: r ∧ next b (r ++ rest) = (some c, rest) := by
  have hv : c.toNat < 0xD800 ∨ (0xDFFF < c.toNat ∧ c.toNat < 0x110000) := c.valid
  have hc : Char.ofNat c.toNat = c := Char.ofNat_toNat c
  unfold encodeChar
  dsimp only
  split
  · rename_i h
    exact ⟨_, _, rfl, by simpa [hc] using next_byte1 h rest⟩
  · split
    · refine ⟨_, _, rfl, ?_⟩
      have e : c.toNat / 64 * 64 + c.toNat % 64 = c.toNat := by omega
      simpa [e, hc] using next_byte2 (a := c.toNat / 64) (b := c.toNat % 64) (by omega) (by omega) (by omega) rest
    · split
      · refine ⟨_, _, rfl, ?_⟩
        have e : c.toNat / 4096 * 4096 + c.toNat / 64 % 64 * 64 + c.toNat % 64 = c.toNat := by omega
        simpa [e, hc] using next_byte3 (a := c.toNat / 4096) (b := c.toNat / 64 % 64) (c := c.toNat % 64) (by omega)
          (by omega) (by omega) (by omega) (by omega) rest
      · refine ⟨_, _, rfl, ?_⟩
        have e : c.toNat / 262144 * 262144 + c.toNat / 4096 % 64 * 4096 + c.toNat / 64 % 64 * 64 + c.toNat % 64 =
            c.toNat := by omega
        simpa [e, hc] using next_byte4 (a := c.toNat / 262144) (b := c.toNat / 4096 % 64) (c := c.toNat / 64 % 64)
          (d := c.toNat % 64) (by omega) (by omega) (by omega) (by omega) (by omega) (by omega) rest

theorem decodeFrom_encode (acc cs : List Char) (rest : Bytes) :
    decodeFrom acc (encode cs ++ rest) = decodeFrom (cs.reverse ++ acc) rest := by
  induction cs generalizing acc with
  | nil => rfl
  | cons c cs ih =>
    obtain ⟨b, r, hb, hn⟩ := next_encodeChar c (encode cs ++ rest)
    have e : encode (c :: cs) ++ rest = b :: (r ++ (encode cs ++ rest)) := by
      simp [encode, hb]
    rw [e, decodeFrom]
    split
    · rename_i c' r' h
      rw [hn] at h
      cases h
      rw [ih]
      simp
    · rename_i h
      rw [hn] at h
      cases h

theorem decode_encode (cs : List Char) : decode? (encode cs) = some cs := by
  have h := decodeFrom_encode [] cs []
  simpa [decode?, decodeFrom] using h

theorem toString_ofString (s : String) : toString? (ofString s) = some s := by
  simp [toString?, ofString, decode_encode]

end Utf8

end Fulfilment
