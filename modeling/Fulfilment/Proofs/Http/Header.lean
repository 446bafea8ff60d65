import Fulfilment.Http.Message
import Fulfilment.Proofs.Text.Utf8
import Fulfilment.Text.Parts

/-!
# Headers

Which texts are names and values of headers (`IsHeaderName`, `IsHeaderValue`), whatever characters they hold: names
are tokens, which are kept in lower case (`headerName?_eq_some_iff`), and in values there is no control character but
the tab (`headerValue?_ofString_eq_some_iff`). So neither of them holds a byte that breaks off a line or a text
(`IsHeader.unbroken`), and a request has one line for each header, whatever the headers say (`partsAt_headerLines`).
-/

namespace Fulfilment

namespace Http

/-- The text is the name of a header. -/
structure IsHeaderName (s : String) : Prop where
  ne_empty : s ≠ ""
  token : ∀ c ∈ s.toList, isToken c = true
  short : s.length ≤ 65535

/-- The text is the value of a header: it holds no control character but tabs. -/
def IsHeaderValue (s : String) : Prop := ∀ c ∈ s.toList, c = '\t' ∨ 0x20 ≤ c.toNat ∧ c.toNat ≠ 0x7F

structure IsHeader (name value : String) : Prop where
  name : IsHeaderName name
  value : IsHeaderValue value

variable {s name value : String} {c : Char} {b : UInt8}

/-! ### Names -/

theorem lowerChar_eq_toLower (c : Char) : lowerChar c = c.toLower := by
  unfold lowerChar Char.toLower
  by_cases h : 'A' ≤ c ∧ c ≤ 'Z'
  · have hlow : 65 ≤ c.toNat := UInt32.le_iff_toNat_le.1 h.1
    have hhigh : c.toNat ≤ 90 := UInt32.le_iff_toNat_le.1 h.2
    have hval : c.val ≥ 'A'.val ∧ c.val ≤ 'Z'.val := h
    rw [if_pos h, dif_pos hval]
    refine Char.ext (UInt32.toNat_inj.1 ?_)
    have hshift : (c.val + ('a'.val - 'A'.val)).toNat = c.toNat + 32 := by
      rw [UInt32.toNat_add]
      exact Nat.mod_eq_of_lt (show c.toNat + 32 < 2 ^ 32 by omega)
    exact (Utf8.toNat_ofNat (by omega)).trans hshift.symm
  · have hval : ¬ (c.val ≥ 'A'.val ∧ c.val ≤ 'Z'.val) := h
    rw [if_neg h, dif_neg hval]

theorem toList_toLower (s : String) : s.toLower.toList = s.toList.map lowerChar := by
  change (s.map Char.toLower).toList = _
  rw [String.toList_map]
  exact List.map_congr_left fun c _ => (lowerChar_eq_toLower c).symm

theorem headerName?_eq_some_iff : headerName? s = some name ↔ IsHeaderName s ∧ name = s.toLower := by
  have lower : String.ofList (s.toList.map lowerChar) = s.toLower := by
    rw [← String.toList_inj, String.toList_ofList, toList_toLower]
  have valid : (s.toList ≠ [] ∧ s.toList.all isToken = true ∧ s.length ≤ 65535) ↔ IsHeaderName s := by
    rw [List.all_eq_true]
    constructor
    · rintro ⟨ne, token, short⟩
      exact ⟨fun h => ne (by rw [h]; rfl), token, short⟩
    · rintro ⟨ne, token, short⟩
      exact ⟨fun h => ne (String.toList_inj.1 h), token, short⟩
  unfold headerName?
  rw [lower]
  by_cases h : IsHeaderName s
  · rw [if_pos (valid.2 h), Option.some.injEq]
    simp [h, eq_comm]
  · rw [if_neg fun h' => h (valid.1 h')]
    simp [h]

theorem isToken_bounds (h : isToken c = true) : 0x20 < c.toNat ∧ c.toNat < 0x7F := by
  unfold isToken at h
  rw [Bool.or_eq_true, List.contains_iff_mem] at h
  rcases h with h | h
  -- letters and digits, by what the classes of characters say
  · change (decide (c.val ≥ 'A'.val ∧ c.val ≤ 'Z'.val) || (decide (c.val ≥ 'a'.val) && decide (c.val ≤ 'z'.val)) ||
      (decide (c.val ≥ '0'.val) && decide (c.val ≤ '9'.val))) = true at h
    simp only [Bool.or_eq_true, Bool.and_eq_true, decide_eq_true_eq, ge_iff_le, UInt32.le_iff_toNat_le] at h
    change (65 ≤ c.toNat ∧ c.toNat ≤ 90 ∨ 97 ≤ c.toNat ∧ c.toNat ≤ 122) ∨ 48 ≤ c.toNat ∧ c.toNat ≤ 57 at h
    omega
  · have printable {marks : List Char} (hall : marks.all (fun c => 0x20 < c.toNat && c.toNat < 0x7F) = true)
        (hmem : c ∈ marks) : 0x20 < c.toNat ∧ c.toNat < 0x7F := by simpa using List.all_eq_true.1 hall c hmem
    exact printable (by decide) h

/-- What the name of a header is kept as might be a value as well. -/
theorem IsHeaderName.isHeaderValue_toLower (h : IsHeaderName s) : IsHeaderValue s.toLower := by
  intro c hc
  rw [toList_toLower, List.mem_map] at hc
  obtain ⟨d, hd, rfl⟩ := hc
  obtain ⟨hlow, hhigh⟩ := isToken_bounds (h.token d hd)
  rw [lowerChar]
  split
  · rename_i upper
    have hZ : d.toNat ≤ 90 := UInt32.le_iff_toNat_le.1 upper.2
    rw [Utf8.toNat_ofNat (by omega)]
    omega
  · omega

/-! ### Values -/

/-- The bytes of a character may stand in a value if the character may. Those of several bytes always do. -/
theorem isValueByte_encodeChar_iff (c : Char) :
    (∀ b ∈ Utf8.encodeChar c, isValueByte b = true) ↔ c = '\t' ∨ 0x20 ≤ c.toNat ∧ c.toNat ≠ 0x7F := by
  have tab : c = '\t' ↔ c.toNat = 9 := by
    rw [← Char.toNat_inj]
    rfl
  rw [tab]
  by_cases small : c.toNat < 0x80
  · have ascii : ∀ n < 0x80, isValueByte (Utf8.byte n) = true ↔ n = 9 ∨ 0x20 ≤ n ∧ n ≠ 0x7F := by decide
    rw [Utf8.encodeChar_small small, List.forall_mem_singleton, ascii _ small]
  · refine iff_of_true (fun b hb => ?_) (by omega)
    have hmarked : 0x80 ≤ b.toNat := Utf8.le_of_mem_encodeChar (by omega) hb
    have hlow : (0x20 : UInt8) ≤ b := UInt8.le_iff_toNat_le.2 (Nat.le_trans (by decide) hmarked)
    have hdelete : b ≠ 0x7F := by
      rintro rfl
      exact absurd hmarked (by decide)
    simp [isValueByte, hlow, hdelete]

theorem all_isValueByte_iff : (Utf8.ofString s).all isValueByte = true ↔ IsHeaderValue s := by
  rw [List.all_eq_true, IsHeaderValue, Utf8.ofString, Utf8.encode]
  simp only [List.mem_flatMap, ← isValueByte_encodeChar_iff]
  constructor
  · intro h c hc b hb
    exact h b ⟨c, hc, hb⟩
  · rintro h b ⟨c, hc, hb⟩
    exact h c hc b hb

theorem headerValue?_ofString_eq_some_iff {bs : Bytes} :
    headerValue? (Utf8.ofString s) = some bs ↔ IsHeaderValue s ∧ bs = Utf8.ofString s := by
  unfold headerValue?
  by_cases h : IsHeaderValue s
  · rw [if_pos (all_isValueByte_iff.2 h), Option.some.injEq]
    simp [h, eq_comm]
  · rw [if_neg fun h' => h (all_isValueByte_iff.1 h')]
    simp [h]

/-! ### Lines -/

/-- Carriage return, line feed, null and delete. -/
def breaks : Bytes := [0x0D, 0x0A, 0x00, 0x7F]

/-- Neither the name nor the value of a header holds one of these bytes. -/
def Unbroken (h : String × Bytes) : Prop := ∀ b ∈ breaks, b ∉ Utf8.ofString h.1 ∧ b ∉ h.2

instance (h : String × Bytes) : Decidable (Unbroken h) :=
  List.decidableBAll (fun b => b ∉ Utf8.ofString h.1 ∧ b ∉ h.2) breaks

theorem IsHeaderValue.not_mem (h : IsHeaderValue s) (hb : b ∈ breaks) : b ∉ Utf8.ofString s := by
  intro hmem
  have allowed : isValueByte b = true := List.all_eq_true.1 (all_isValueByte_iff.2 h) b hmem
  have refused : breaks.all (fun b => !isValueByte b) = true := by decide
  have hrefused : (!isValueByte b) = true := List.all_eq_true.1 refused b hb
  rw [allowed] at hrefused
  cases hrefused

theorem IsHeader.unbroken (h : IsHeader name value) : Unbroken (name.toLower, Utf8.ofString value) :=
  fun _ hb => ⟨h.name.isHeaderValue_toLower.not_mem hb, h.value.not_mem hb⟩

/-- A header as it stands in a request, without the end of its line. -/
def headerLine (h : String × Bytes) : Bytes := Utf8.ofString h.1 ++ [0x3A, 0x20] ++ h.2

/-- The headers of a request one after the other, each with the end of its line. -/
def headerLines (headers : List (String × Bytes)) : Bytes := headers.flatMap fun h => headerLine h ++ [0x0D, 0x0A]

theorem partsAt_headerLines {headers : List (String × Bytes)} (h : ∀ x ∈ headers, Unbroken x) :
    partsAt 0x0A (headerLines headers) = headers.map (fun x => headerLine x ++ [0x0D]) ++ [[]] := by
  induction headers with
  | nil => rfl
  | cons x rest ih =>
    obtain ⟨hx, hrest⟩ := List.forall_mem_cons.1 h
    obtain ⟨hname, hvalue⟩ := hx 0x0A (by decide)
    have line : 0x0A ∉ headerLine x ++ [0x0D] := by simp [headerLine, hname, hvalue]
    have split : headerLines (x :: rest) = (headerLine x ++ [0x0D]) ++ 0x0A :: headerLines rest := by
      simp [headerLines]
    rw [split, partsAt_append_cons, partsAt_of_not_mem line, ih hrest]
    rfl

end Http

end Fulfilment
