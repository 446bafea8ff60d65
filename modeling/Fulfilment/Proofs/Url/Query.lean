import Fulfilment.Proofs.Http.Form
import Fulfilment.Proofs.Url.Target

/-!
# Forms in queries

Entries that are added to the query of an address are read behind what the query held before
(`exists_query_withEntries`), and leave the address such that it can be sent as it is (`Sendable.withEntries`).
-/

namespace Fulfilment

namespace Url

/-- The bytes of a form as characters of an address. -/
def formText (entries : List (String × String)) : List Char := (Form.encode entries).map fun b => Char.ofNat b.toNat

/-- The bytes that a form is written with are characters that can be sent in a query. -/
theorem clean_of_formByte : ∀ n < 256,
    Form.isPlain (Utf8.byte n) = true ∨ Utf8.byte n = 43 ∨ Utf8.byte n = 37 ∨ Utf8.byte n = 61 ∨ Utf8.byte n = 38 →
      0x20 ≤ n ∧ n ≤ 0x7E ∧ Char.ofNat n ∉ queryMarks true := by
  decide +kernel

theorem clean_of_mem_encode {entries : List (String × String)} {b : UInt8} (h : b ∈ Form.encode entries) :
    0x20 ≤ b.toNat ∧ b.toNat ≤ 0x7E ∧ Char.ofNat b.toNat ∉ queryMarks true := by
  have hb := Form.of_mem_encode h
  rw [Utf8.eq_byte (b := b) rfl] at hb
  exact clean_of_formByte b.toNat b.toNat_lt hb

theorem clean_formText (entries : List (String × String)) : Clean (queryMarks true) (formText entries) := by
  intro c hc
  obtain ⟨b, hb, rfl⟩ := List.mem_map.1 hc
  obtain ⟨hlow, hhigh, hmark⟩ := clean_of_mem_encode hb
  rw [Utf8.toNat_ofNat (by omega)]
  exact ⟨hlow, hhigh, hmark⟩

theorem encode_map_ofNat {bs : Bytes} (h : ∀ b ∈ bs, b.toNat < 0x80) :
    Utf8.encode (bs.map fun b => Char.ofNat b.toNat) = bs := by
  induction bs with
  | nil => rfl
  | cons b bs ih =>
    rw [List.forall_mem_cons] at h
    rw [List.map_cons, Utf8.encode, List.flatMap_cons, Utf8.encodeChar_one h.1]
    exact congrArg _ (ih h.2)

theorem encode_formText (entries : List (String × String)) :
    Utf8.encode (formText entries) = Form.encode entries := by
  apply encode_map_ofNat
  intro b hb
  obtain ⟨-, hhigh, -⟩ := clean_of_mem_encode hb
  omega

variable (u : Url) (entries : List (String × String))

/-- Entries stand behind what the query held before, if it held anything. -/
theorem query_withEntries :
    (u.query.getD [] = [] ∧ (u.withEntries entries).query = some (formText entries)) ∨
      ∃ query, u.query = some query ∧ (u.withEntries entries).query = some (query ++ '&' :: formText entries) := by
  unfold withEntries formText
  match u.query with
  | none => exact .inl ⟨rfl, rfl⟩
  | some [] => exact .inl ⟨rfl, rfl⟩
  | some (c :: q) => exact .inr ⟨c :: q, rfl, rfl⟩

theorem exists_query_withEntries : ∃ query, (u.withEntries entries).query = some query ∧
    Form.decode (Utf8.encode query) = Form.decode (Utf8.encode (u.query.getD [])) ++ entries := by
  have hadded : Form.decode (Utf8.encode (formText entries)) = entries := by
    rw [encode_formText, Form.decode_encode]
  rcases u.query_withEntries entries with ⟨hnone, hadds⟩ | ⟨query, hquery, hadds⟩
  · refine ⟨_, hadds, ?_⟩
    rw [hnone, hadded]
    rfl
  · refine ⟨_, hadds, ?_⟩
    have hbytes : Utf8.encode (query ++ '&' :: formText entries) =
        Utf8.encode query ++ 38 :: Utf8.encode (formText entries) := by
      rw [Utf8.encode, List.flatMap_append]
      rfl
    rw [hbytes, Form.decode_append, hadded, hquery]
    rfl

theorem Sendable.withEntries {u : Url} (h : u.Sendable) (entries : List (String × String)) :
    (u.withEntries entries).Sendable where
  path_ne := h.path_ne
  path := h.path
  query := by
    have hform := clean_formText entries
    intro q hq
    rcases u.query_withEntries entries with ⟨-, hadds⟩ | ⟨query, hquery, hadds⟩
    · rw [hadds] at hq
      obtain rfl := Option.mem_some.1 hq
      exact hform
    · rw [hadds] at hq
      obtain rfl := Option.mem_some.1 hq
      intro c hc
      rcases List.mem_append.1 hc with hc | hc
      · exact h.query query hquery c hc
      · rcases List.mem_cons.1 hc with rfl | hc
        · decide
        · exact hform c hc

end Url

end Fulfilment
