import Fulfilment.Order.Api
import Fulfilment.Proofs.Text.Blank
import Fulfilment.Proofs.Time.Timestamp
import Fulfilment.Text.Parts

/-!
# The keys of uploads

An upload is stored under a key of its own, which ends with the name that the client gives its file: the last part of
the path (`OrderService.uploadName?_eq_some_iff`). Before the name stand the time and an identifier, in which there is
neither a slash nor a dot. So the key has a single slash (`count_slash_uploadKey`), and two dots in a row just when
the name has them (`hasDoubleDot_uploadKey`).
-/

namespace Fulfilment

namespace OrderService

/-! ### Names of files -/

/-- Parts of a path are separated by slashes of either kind. -/
def Separates (c : Char) : Prop := c = '/' ∨ c = '\\'

/-- The last part of a path. -/
structure LastPart (path part : List Char) : Prop where
  whole : ∀ c ∈ part, ¬ Separates c
  last : path = part ∨ ∃ front c, Separates c ∧ path = front ++ c :: part

/-- The path names a file: its last part without white space at its ends does, unless there is nothing, or it means a
directory. -/
structure Names (path name : String) : Prop where
  part : ∃ part, LastPart path.toList part ∧ name.toList = Blank.trim part
  ne_empty : name ≠ ""
  ne_dot : name ≠ "."
  ne_dots : name ≠ ".."

variable {path part : List Char} {raw name : String} {c : Char}

theorem not_separates_iff : ¬ Separates c ↔ (c != '/' && c != '\\') = true := by
  simp [Separates]

theorem lastPart_iff :
    LastPart path part ↔ part = (path.reverse.takeWhile fun c => c != '/' && c != '\\').reverse := by
  have hsep (c : Char) : Separates c ↔ (c != '/' && c != '\\') = false := by
    rw [← Bool.not_eq_true, ← not_separates_iff, Classical.not_not]
  rw [eq_reverse_takeWhile_iff]
  constructor
  · rintro ⟨whole, last⟩
    exact ⟨fun c hc => not_separates_iff.1 (whole c hc), by simpa only [hsep] using last⟩
  · rintro ⟨whole, last⟩
    exact ⟨fun c hc => not_separates_iff.2 (whole c hc), by simpa only [hsep] using last⟩

theorem uploadName?_eq_some_iff : uploadName? raw = some name ↔ Names raw name := by
  unfold uploadName?
  dsimp only
  constructor
  · intro h
    split at h
    · cases h
    · rename_i usable
      cases h
      simp only [not_or] at usable
      exact ⟨⟨_, lastPart_iff.2 rfl, String.toList_ofList⟩, usable.1, usable.2.1, usable.2.2⟩
  · rintro ⟨⟨part, hpart, hname⟩, h₁, h₂, h₃⟩
    have heq :
        String.ofList (Blank.trim (raw.toList.reverse.takeWhile fun c => c != '/' && c != '\\').reverse) = name := by
      rw [← lastPart_iff.1 hpart, ← hname, String.ofList_toList]
    rw [heq, if_neg (by simp [h₁, h₂, h₃])]

example : uploadName? "C:\\exports/ may.csv " = some "may.csv" := by decide

theorem Names.not_separates (h : Names raw name) : ∀ c ∈ name.toList, ¬ Separates c := by
  obtain ⟨part, hpart, hname⟩ := h.part
  intro c hc
  rw [hname] at hc
  exact hpart.whole c (Blank.mem_of_mem_trim hc)

/-! ### Keys -/

/-- What stands between the folder and the name in the key of an upload. -/
def keyMark (now : Instant) (id : Uuid) : List Char := (Timestamp.stamp now).toList ++ '-' :: id.print ++ ['_']

theorem toList_uploadKey (now : Instant) (id : Uuid) (name : String) :
    (uploadKey now id name).toList = "uploads/".toList ++ (keyMark now id ++ name.toList) := by
  unfold uploadKey keyMark
  simp [toString, String.toList_append, Uuid.render]

/-- Neither a slash nor a dot. -/
def Inert (c : Char) : Prop := c ≠ '/' ∧ c ≠ '.'

theorem inert_of_isDigit (h : c.isDigit = true) : Inert c := by
  constructor <;> rintro rfl <;> cases h

theorem inert_stamp (now : Instant) : ∀ c ∈ (Timestamp.stamp now).toList, Inert c := by
  have digits {width n : Nat} : ∀ c ∈ Timestamp.padded width n, Inert c :=
    fun c hc => inert_of_isDigit (Timestamp.padded_isDigit c hc)
  have year : ∀ c ∈ Timestamp.printYear now.date.year, Inert c := by
    unfold Timestamp.printYear
    split
    · exact digits
    · rw [List.forall_mem_cons]
      refine ⟨?_, digits⟩
      split <;> exact ⟨by decide, by decide⟩
  unfold Timestamp.stamp
  rw [String.toList_ofList]
  simp only [List.forall_mem_append, List.forall_mem_cons]
  exact ⟨⟨⟨⟨⟨year, digits⟩, digits⟩, ⟨by decide, by decide⟩, digits⟩, digits⟩, digits⟩

theorem inert_hexChar : ∀ d, Inert (Uuid.hexChar d) := by
  unfold Inert
  decide

theorem inert_print (id : Uuid) : ∀ c ∈ id.print, Inert c := by
  have group {start count : Nat} : ∀ c ∈ id.group start count, Inert c := by
    intro c hc
    obtain ⟨d, -, rfl⟩ := List.mem_map.1 hc
    exact inert_hexChar d
  have hyphen : Inert '-' := ⟨by decide, by decide⟩
  unfold Uuid.print
  simp only [List.forall_mem_append, List.forall_mem_cons]
  exact ⟨⟨⟨⟨group, hyphen, group⟩, hyphen, group⟩, hyphen, group⟩, hyphen, group⟩

theorem inert_keyMark (now : Instant) (id : Uuid) : ∀ c ∈ keyMark now id, Inert c := by
  unfold keyMark
  simp only [List.forall_mem_append, List.forall_mem_cons]
  exact ⟨⟨inert_stamp now, ⟨by decide, by decide⟩, inert_print id⟩, ⟨by decide, by decide⟩, List.forall_mem_nil _⟩

theorem count_slash_uploadKey (now : Instant) (id : Uuid) (h : Names raw name) :
    (uploadKey now id name).toList.count '/' = 1 := by
  have hmark : (keyMark now id).count '/' = 0 :=
    List.count_eq_zero.2 fun hc => (inert_keyMark now id _ hc).1 rfl
  have hname : name.toList.count '/' = 0 := List.count_eq_zero.2 fun hc => h.not_separates _ hc (.inl rfl)
  have hfolder : "uploads/".toList.count '/' = 1 := by decide
  rw [toList_uploadKey, List.count_append, List.count_append, hfolder, hmark, hname]

/-! ### Dots -/

theorem hasDoubleDot_cons_of_ne (h : c ≠ '.') (cs : List Char) : hasDoubleDot (c :: cs) = hasDoubleDot cs := by
  rw [hasDoubleDot]
  rintro cs' rfl
  exact absurd rfl h

theorem hasDoubleDot_iff {cs : List Char} : hasDoubleDot cs = true ↔ ['.', '.'] <:+: cs := by
  fun_induction hasDoubleDot cs with
  | case1 rest => exact iff_of_true rfl ⟨[], rest, rfl⟩
  | case2 c rest h ih =>
    have hprefix : ¬ ['.', '.'] <+: c :: rest := by
      rintro ⟨rest', heq⟩
      obtain ⟨rfl, rfl⟩ := List.cons.inj heq
      exact h rest' rfl rfl
    rw [ih, List.infix_cons_iff, or_iff_right hprefix]
  | case3 => simp

/-- Two dots in a row in the key of an upload stand in the name. -/
theorem hasDoubleDot_uploadKey (now : Instant) (id : Uuid) (name : String) :
    hasDoubleDot (uploadKey now id name).toList = hasDoubleDot name.toList := by
  -- what has no dot in it neither holds two in a row nor the first of two
  have skip {front cs : List Char} (h : '.' ∉ front) : hasDoubleDot (front ++ cs) = hasDoubleDot cs := by
    induction front with
    | nil => rfl
    | cons c front ih =>
      rw [List.mem_cons, not_or] at h
      rw [List.cons_append, hasDoubleDot_cons_of_ne (Ne.symm h.1), ih h.2]
  have folder : '.' ∉ "uploads/".toList := by decide
  have mark : '.' ∉ keyMark now id := fun hc => (inert_keyMark now id _ hc).2 rfl
  rw [toList_uploadKey, skip folder, skip mark]

end OrderService

end Fulfilment
