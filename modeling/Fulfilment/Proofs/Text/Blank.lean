import Fulfilment.Text.Blank

/-!
# Blanks at the ends

What is left of a text without the white space at its ends: nothing, just when the text is blank (`trim_eq_nil_iff`),
and the same with more white space in front of it or behind it (`trim_padded`).
-/

namespace Fulfilment

namespace Blank

variable {c : Char} {cs before after : List Char}

theorem trimStart_eq_nil_iff : trimStart cs = [] ↔ ∀ c ∈ cs, isBlank c = true := by
  unfold trimStart
  induction cs with
  | nil => simp
  | cons c cs ih =>
    rw [List.forall_mem_cons]
    cases hc : isBlank c <;> simp [hc, ih]

theorem trimStart_append (h : ∀ c ∈ before, isBlank c = true) : trimStart (before ++ cs) = trimStart cs :=
  List.dropWhile_append_of_pos h

theorem trimEnd_append (h : ∀ c ∈ after, isBlank c = true) : trimEnd (cs ++ after) = trimEnd cs := by
  have hreverse : ∀ c ∈ after.reverse, isBlank c = true := by simpa using h
  unfold trimEnd
  rw [List.reverse_append, List.dropWhile_append_of_pos hreverse]

theorem trim_eq_nil_iff : trim cs = [] ↔ ∀ c ∈ cs, isBlank c = true := by
  rw [← trimStart_eq_nil_iff]
  unfold trim
  rcases trimStart_eq_nil_or cs with h | ⟨c, rest, h, hc⟩
  · simp [h, trimEnd]
  · simp [h, trimEnd_cons hc]

theorem trim_padded (hb : ∀ c ∈ before, isBlank c = true) (ha : ∀ c ∈ after, isBlank c = true) :
    trim (before ++ cs ++ after) = trim cs := by
  unfold trim
  rw [List.append_assoc, trimStart_append hb]
  rcases trimStart_eq_nil_or cs with h | ⟨c, rest, h, hc⟩
  · -- blanks only: what stands behind them is taken off from the front
    rw [h, trimStart_append (trimStart_eq_nil_iff.1 h), trimStart_eq_nil_iff.2 ha]
  · have happend : trimStart (cs ++ after) = trimStart cs ++ after := by
      unfold trimStart at h ⊢
      rw [List.dropWhile_append]
      simp [h]
    rw [happend, trimEnd_append ha]

theorem mem_of_mem_trim (h : c ∈ trim cs) : c ∈ cs := by
  unfold trim trimEnd at h
  rw [List.mem_reverse] at h
  have hstart : c ∈ trimStart cs := List.mem_reverse.1 ((List.dropWhile_sublist _).mem h)
  exact (List.dropWhile_sublist _).mem hstart

/-- A text without white space is left as it is. -/
theorem trim_eq_self (h : ∀ c ∈ cs, isBlank c = false) : trim cs = cs := by
  have hstart : ∀ cs : List Char, (∀ c ∈ cs, isBlank c = false) → cs.dropWhile isBlank = cs := by
    intro cs hcs
    cases cs with
    | nil => rfl
    | cons c rest => exact trimStart_cons (hcs c List.mem_cons_self) rest
  unfold trim trimStart trimEnd
  rw [hstart cs h, hstart cs.reverse (by simpa using h), List.reverse_reverse]

end Blank

theorem trimmed_trimmed (s : String) : trimmed (trimmed s) = trimmed s := by
  unfold trimmed
  rw [String.toList_ofList, Blank.trim_trim]

theorem blank_trimmed (s : String) : blank (trimmed s) = blank s := by
  have hiff : blank (trimmed s) = true ↔ blank s = true := by
    unfold blank trimmed
    rw [String.toList_ofList, List.all_eq_true, List.all_eq_true, ← Blank.trim_eq_nil_iff, ← Blank.trim_eq_nil_iff,
      Blank.trim_trim]
  exact Bool.eq_iff_iff.2 hiff

end Fulfilment
