/-!
# Parts

A list cut at every place where a separator stands. There is one part more than there are separators.

* `intercalate_partsAt`: the parts with separators between them are the list.
* `eq_reverse_takeWhile_iff`: what stands behind the last item of a kind.
-/

namespace Fulfilment

/-- The parts between the items `sep`. -/
def partsAt {α : Type} [DecidableEq α] (sep : α) : List α → List (List α)
  | [] => [[]]
  | a :: rest =>
    if a = sep then [] :: partsAt sep rest
    else
      match partsAt sep rest with
      | [] => [[a]]
      | part :: parts => (a :: part) :: parts

variable {α : Type} [DecidableEq α]

theorem partsAt_ne_nil (sep : α) (as : List α) : partsAt sep as ≠ [] := by
  cases as with
  | nil => simp [partsAt]
  | cons a rest =>
    unfold partsAt
    split
    · simp
    · split <;> simp

theorem intercalate_partsAt (sep : α) (as : List α) : [sep].intercalate (partsAt sep as) = as := by
  induction as with
  | nil => rfl
  | cons a rest ih =>
    obtain ⟨part, parts, hp⟩ := List.exists_cons_of_ne_nil (partsAt_ne_nil sep rest)
    unfold partsAt
    split
    · rename_i h
      rw [hp] at ih ⊢
      subst h
      cases parts <;> simpa [List.intercalate] using ih
    · rw [hp] at ih ⊢
      cases parts <;> simpa [List.intercalate] using ih

theorem partsAt_append_cons {sep : α} (as bs : List α) :
    partsAt sep (as ++ sep :: bs) = partsAt sep as ++ partsAt sep bs := by
  induction as with
  | nil => simp [partsAt]
  | cons a rest ih =>
    obtain ⟨part, parts, hparts⟩ := List.exists_cons_of_ne_nil (partsAt_ne_nil sep rest)
    by_cases h : a = sep
    · simp [partsAt, h, ih]
    · simp [partsAt, h, ih, hparts]

theorem partsAt_of_not_mem {sep : α} {as : List α} (h : sep ∉ as) : partsAt sep as = [as] := by
  induction as with
  | nil => rfl
  | cons a rest ih =>
    rw [List.mem_cons, not_or] at h
    simp [partsAt, Ne.symm h.1, ih h.2]

/-! ### What stands at the end -/

/-- What stands at the end of a list, back to the last element that is not wanted. -/
theorem eq_reverse_takeWhile_iff {α : Type} {p : α → Bool} {l tail : List α} :
    tail = (l.reverse.takeWhile p).reverse ↔
      (∀ a ∈ tail, p a = true) ∧ (l = tail ∨ ∃ front a, p a = false ∧ l = front ++ a :: tail) := by
  constructor
  · rintro rfl
    refine ⟨fun a ha => List.all_eq_true.1 List.all_takeWhile a (List.mem_reverse.1 ha), ?_⟩
    -- seen from its end, the list is what is wanted and then the rest, which begins with what is not
    have hsplit : l = (l.reverse.dropWhile p).reverse ++ (l.reverse.takeWhile p).reverse := by
      rw [← List.reverse_append, List.takeWhile_append_dropWhile, List.reverse_reverse]
    cases hd : l.reverse.dropWhile p with
    | nil =>
      rw [hd] at hsplit
      exact .inl hsplit
    | cons a front =>
      have hstop : p a = false := by
        have hhead := List.head_dropWhile_not p (l := l.reverse) (by simp [hd])
        simpa only [hd, List.head_cons] using hhead
      refine .inr ⟨front.reverse, a, hstop, ?_⟩
      rw [hd, List.reverse_cons, List.append_assoc] at hsplit
      exact hsplit
  · rintro ⟨hall, h⟩
    have hall' : ∀ a ∈ tail.reverse, p a = true := fun a ha => hall a (List.mem_reverse.1 ha)
    rcases h with rfl | ⟨front, a, hstop, rfl⟩
    · have h : (l.reverse ++ []).takeWhile p = l.reverse ++ [].takeWhile p := List.takeWhile_append_of_pos hall'
      rw [List.append_nil] at h
      rw [h, List.takeWhile_nil, List.append_nil, List.reverse_reverse]
    · rw [List.reverse_append, List.reverse_cons, List.append_assoc, List.takeWhile_append_of_pos hall',
        List.singleton_append, List.takeWhile_cons_of_neg (by simp [hstop]), List.append_nil, List.reverse_reverse]

end Fulfilment
