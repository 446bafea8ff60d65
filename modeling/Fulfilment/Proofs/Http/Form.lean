import Fulfilment.Http.Form
import Fulfilment.Proofs.Text.Utf8

/-!
# Forms read back

Entries that are written as a form are read back as they were, whatever characters their names and values hold
(`decode_encode`): none of the bytes that a name or a value is written as is one that ends it (`of_mem_encodePart`).
Entries that are written behind others are read behind them (`decode_append`).
-/

namespace Fulfilment

namespace Form

variable {b c : UInt8} {n : Nat}

/-! ### Hexadecimal digits -/

theorem hexValue?_hexDigit (h : n < 16) : hexValue? (hexDigit n) = some n := by
  revert n
  decide

theorem isPlain_hexDigit (h : n < 16) : isPlain (hexDigit n) = true := by
  revert n
  decide

theorem ne_of_isPlain (hb : isPlain b = true) (hc : isPlain c = false) : b ≠ c := by
  rintro rfl
  rw [hb] at hc
  cases hc

theorem of_mem_percent (h : c ∈ percent b) : isPlain c = true ∨ c = 37 := by
  have hb : b.toNat < 256 := b.toNat_lt
  simp only [percent, List.mem_cons, List.not_mem_nil, or_false] at h
  rcases h with rfl | rfl | rfl
  · exact .inr rfl
  · exact .inl (isPlain_hexDigit (by omega))
  · exact .inl (isPlain_hexDigit (by omega))

/-! ### Bytes -/

theorem percentDecode_cons (h : b ≠ 37) (rest : Bytes) : percentDecode (b :: rest) = b :: percentDecode rest := by
  match rest with
  | [] => rfl
  | [_] => rfl
  | _ :: _ :: _ => rw [percentDecode, if_neg h]

theorem percentDecode_percent (b : UInt8) (rest : Bytes) :
    percentDecode (percent b ++ rest) = b :: percentDecode rest := by
  have hb : b.toNat < 256 := b.toNat_lt
  have hhigh : hexValue? (hexDigit (b.toNat / 16)) = some (b.toNat / 16) := hexValue?_hexDigit (by omega)
  have hlow : hexValue? (hexDigit (b.toNat % 16)) = some (b.toNat % 16) := hexValue?_hexDigit (by omega)
  have hjoin : b = Utf8.byte (b.toNat / 16 * 16 + b.toNat % 16) := Utf8.eq_byte (by omega)
  rw [percent, List.cons_append, List.cons_append, List.cons_append, List.nil_append, percentDecode, if_pos rfl,
    hhigh, hlow]
  dsimp only
  rw [← hjoin]

/-- A plus sign stands for a space. -/
def unplus (b : UInt8) : UInt8 := if b = 43 then 32 else b

theorem unplus_of_ne (h : b ≠ 43) : unplus b = b := if_neg h

theorem map_unplus_percent (b : UInt8) : (percent b).map unplus = percent b := by
  have hid : ∀ c ∈ percent b, unplus c = c := by
    intro c hc
    apply unplus_of_ne
    rcases of_mem_percent hc with h | rfl
    · exact ne_of_isPlain h (by decide)
    · decide
  rw [List.map_congr_left hid, List.map_id']

theorem of_mem_encodeByte (h : c ∈ encodeByte b) : isPlain c = true ∨ c = 43 ∨ c = 37 := by
  unfold encodeByte at h
  split at h
  · rename_i hb
    rw [List.mem_singleton.1 h]
    exact .inl hb
  · split at h
    · exact .inr (.inl (List.mem_singleton.1 h))
    · rcases of_mem_percent h with h | h
      · exact .inl h
      · exact .inr (.inr h)

theorem percentDecode_encodeByte (b : UInt8) (rest : Bytes) :
    percentDecode ((encodeByte b).map unplus ++ rest) = b :: percentDecode rest := by
  unfold encodeByte
  split
  · rename_i hb
    rw [List.map_singleton, unplus_of_ne (ne_of_isPlain hb (by decide)), List.singleton_append,
      percentDecode_cons (ne_of_isPlain hb (by decide))]
  · split
    · rename_i hb
      rw [hb]
      exact percentDecode_cons (by decide) rest
    · rw [map_unplus_percent, percentDecode_percent]

theorem percentDecode_encodeBytes (bs : Bytes) : percentDecode ((bs.flatMap encodeByte).map unplus) = bs := by
  induction bs with
  | nil => rfl
  | cons b bs ih => rw [List.flatMap_cons, List.map_append, percentDecode_encodeByte, ih]

/-! ### Entries -/

variable {s : String}

theorem of_mem_encodePart (h : c ∈ encodePart s) : isPlain c = true ∨ c = 43 ∨ c = 37 := by
  obtain ⟨b, -, hc⟩ := List.mem_flatMap.1 h
  exact of_mem_encodeByte hc

theorem decodePart_encodePart (s : String) : decodePart (encodePart s) = s := by
  have hbytes : percentDecode ((encodePart s).map fun b => if b = 43 then 32 else b) = Utf8.encode s.toList :=
    percentDecode_encodeBytes _
  have hchars := Utf8.decodeLossy_encode_append s.toList []
  rw [List.append_nil, Utf8.decodeLossy_nil, List.append_nil] at hchars
  rw [decodePart, hbytes, hchars, String.ofList_toList]

theorem decodeEntry_encodeEntry (e : String × String) : decodeEntry (encodeEntry e) = e := by
  have hname : ∀ c ∈ encodePart e.1, (c != 61) = true := by
    intro c hc
    rw [bne_iff_ne]
    rcases of_mem_encodePart hc with h | rfl | rfl
    · exact ne_of_isPlain h (by decide)
    · decide
    · decide
  rw [decodeEntry, encodeEntry, List.takeWhile_append_of_pos hname, List.dropWhile_append_of_pos hname]
  simp [decodePart_encodePart]

theorem of_mem_encodeEntry {e : String × String} (h : c ∈ encodeEntry e) :
    isPlain c = true ∨ c = 43 ∨ c = 37 ∨ c = 61 := by
  rw [encodeEntry, List.mem_append, List.mem_cons] at h
  rcases h with h | rfl | h
  · have := of_mem_encodePart h
    grind
  · simp
  · have := of_mem_encodePart h
    grind

theorem not_mem_encodeEntry (e : String × String) : 38 ∉ encodeEntry e := by
  intro h
  have := of_mem_encodeEntry h
  revert this
  decide

/-- What stands behind a separator is read behind what stands before it. -/
theorem decode_append (bs cs : Bytes) : decode (bs ++ 38 :: cs) = decode bs ++ decode cs := by
  rw [decode, partsAt_append_cons, List.filter_append, List.map_append]
  rfl

theorem decode_encodeEntry (e : String × String) : decode (encodeEntry e) = [e] := by
  have hne : encodeEntry e ≠ [] := by simp [encodeEntry]
  rw [decode, partsAt_of_not_mem (not_mem_encodeEntry e)]
  simp [hne, decodeEntry_encodeEntry]

theorem encode_singleton (e : String × String) : encode [e] = encodeEntry e := by
  simp [encode, List.intercalate]

theorem encode_cons_cons (e e' : String × String) (rest : List (String × String)) :
    encode (e :: e' :: rest) = encodeEntry e ++ 38 :: encode (e' :: rest) := by
  simp [encode, List.intercalate]

theorem of_mem_encode {entries : List (String × String)} (h : c ∈ encode entries) :
    isPlain c = true ∨ c = 43 ∨ c = 37 ∨ c = 61 ∨ c = 38 := by
  induction entries with
  | nil => exact absurd h List.not_mem_nil
  | cons e rest ih =>
    cases rest with
    | nil =>
      rw [encode_singleton] at h
      have := of_mem_encodeEntry h
      grind
    | cons e' rest =>
      rw [encode_cons_cons, List.mem_append, List.mem_cons] at h
      rcases h with h | rfl | h
      · have := of_mem_encodeEntry h
        grind
      · simp
      · exact ih h

theorem decode_encode (entries : List (String × String)) : decode (encode entries) = entries := by
  induction entries with
  | nil => rfl
  | cons e rest ih =>
    cases rest with
    | nil => rw [encode_singleton, decode_encodeEntry]
    | cons e' rest => rw [encode_cons_cons, decode_append, decode_encodeEntry, ih, List.singleton_append]

end Form

end Fulfilment
