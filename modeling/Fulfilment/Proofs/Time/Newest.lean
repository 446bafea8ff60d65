import Fulfilment.Time.Newest

/-!
# The order of listings

Sorting keeps items that are alike in the order as they stood (`filter_mergeSort`). Instants are in order
(`Instant.le_total`, `Instant.le_antisymm`). A listing holds the items that were given, the latest first, and those of
one time in the order in which they stood (`latestFirst_newestFirst`). No other list does (`LatestFirst.unique`), so
items may be picked before or after they are listed (`newestFirst_filter`). What stands in front of a listing are the
latest of the items (`LatestFirst.take`).
-/

namespace Fulfilment

/-- Items that are alike in the order keep the order in which they stood. -/
theorem filter_mergeSort {α : Type} {le : α → α → Bool}
    (trans : ∀ a b c, le a b = true → le b c = true → le a c = true) (total : ∀ a b, (le a b || le b a) = true)
    {p : α → Bool} (alike : ∀ a b, p a = true → p b = true → le a b = true) (items : List α) :
    (items.mergeSort le).filter p = items.filter p := by
  -- the items picked stand in order already, so sorting keeps them in it, and there are no others of them
  have hpicked : (items.filter p).Pairwise fun a b => le a b = true := by
    apply List.pairwise_of_forall_mem_list
    intro a ha b hb
    exact alike a b (List.mem_filter.1 ha).2 (List.mem_filter.1 hb).2
  have hsub := (List.sublist_mergeSort trans total hpicked List.filter_sublist).filter p
  rw [List.filter_filter] at hsub
  simp only [Bool.and_self] at hsub
  exact (hsub.eq_of_length ((List.mergeSort_perm items le).filter p).length_eq.symm).symm

namespace Instant

section Key

variable {xs ys zs : List Int}

theorem keyLe_cons_iff {x y : Int} : keyLe (x :: xs) (y :: ys) = true ↔ x < y ∨ x = y ∧ keyLe xs ys = true := by
  simp [keyLe]

theorem keyLe_total (xs ys : List Int) : keyLe xs ys = true ∨ keyLe ys xs = true := by
  induction xs generalizing ys with
  | nil => exact .inl rfl
  | cons x xs ih =>
    cases ys with
    | nil => exact .inr rfl
    | cons y ys =>
      rw [keyLe_cons_iff, keyLe_cons_iff]
      rcases Int.lt_trichotomy x y with h | rfl | h
      · exact .inl (.inl h)
      · simpa using ih ys
      · exact .inr (.inl h)

theorem keyLe_trans (h : keyLe xs ys = true) (h' : keyLe ys zs = true) : keyLe xs zs = true := by
  induction xs generalizing ys zs with
  | nil => rfl
  | cons x xs ih =>
    cases ys with
    | nil => cases h
    | cons y ys =>
      cases zs with
      | nil => cases h'
      | cons z zs =>
        rw [keyLe_cons_iff] at h h' ⊢
        rcases h with h | ⟨rfl, h⟩
        · rcases h' with h' | ⟨rfl, -⟩
          · exact .inl (Int.lt_trans h h')
          · exact .inl h
        · rcases h' with h' | ⟨rfl, h'⟩
          · exact .inl h'
          · exact .inr ⟨rfl, ih h h'⟩

theorem eq_of_keyLe (h : keyLe xs ys = true) (h' : keyLe ys xs = true) : xs = ys := by
  induction xs generalizing ys with
  | nil =>
    cases ys with
    | nil => rfl
    | cons y ys => cases h'
  | cons x xs ih =>
    cases ys with
    | nil => cases h
    | cons y ys =>
      rw [keyLe_cons_iff] at h h'
      have hxy : x = y := by omega
      subst hxy
      have hne : ¬ x < x := Int.lt_irrefl x
      rw [ih (by simpa [hne] using h) (by simpa [hne] using h')]

end Key

variable {a b c : Instant}

theorem eq_of_key (h : a.key = b.key) : a = b := by
  obtain ⟨⟨y, m, d, _⟩, s, n, _⟩ := a
  obtain ⟨⟨y', m', d', _⟩, s', n', _⟩ := b
  simp only [key, List.cons.injEq, Int.natCast_inj, and_true] at h
  obtain ⟨rfl, rfl, rfl, rfl, rfl⟩ := h
  rfl

theorem le_total (a b : Instant) : a ≤ b ∨ b ≤ a := keyLe_total a.key b.key

theorem le_refl (a : Instant) : a ≤ a := (le_total a a).elim id id

theorem le_trans (h : a ≤ b) (h' : b ≤ c) : a ≤ c := keyLe_trans h h'

theorem le_antisymm (h : a ≤ b) (h' : b ≤ a) : a = b := eq_of_key (eq_of_keyLe h h')

end Instant

variable {α : Type} {time : α → Instant} {items listed listed' : List α}

/-- The items with the latest first, and those of one time in the order in which they stand in `items`. -/
structure LatestFirst (time : α → Instant) (items listed : List α) : Prop where
  perm : listed.Perm items
  descending : listed.Pairwise fun a b => time b ≤ time a
  ties : ∀ t, listed.filter (fun a => time a = t) = items.filter fun a => time a = t

/-- The latest of the items with those that are left out. Of items of one time those are left out that stand last. -/
structure Latest (time : α → Instant) (items kept left : List α) : Prop where
  perm : (kept ++ left).Perm items
  descending : kept.Pairwise fun a b => time b ≤ time a
  ties : ∀ t, kept.filter (fun a => time a = t) <+: items.filter fun a => time a = t
  later : ∀ a ∈ kept, ∀ b ∈ left, time b ≤ time a

theorem mem_iff_of_ties {as bs : List α} (h : ∀ t, as.filter (fun a => time a = t) = bs.filter fun a => time a = t)
    (a : α) : a ∈ as ↔ a ∈ bs := by
  have ha : a ∈ as.filter (fun b => time b = time a) ↔ a ∈ bs.filter fun b => time b = time a := by rw [h]
  simpa using ha

/-- Lists in descending order are the same if they hold the same items of each time in the same order. -/
theorem eq_of_ties {as bs : List α} (ha : as.Pairwise fun a b => time b ≤ time a)
    (hb : bs.Pairwise fun a b => time b ≤ time a)
    (h : ∀ t, as.filter (fun a => time a = t) = bs.filter fun a => time a = t) : as = bs := by
  have hmem := mem_iff_of_ties h
  induction as generalizing bs with
  | nil =>
    cases bs with
    | nil => rfl
    | cons b bs => simpa using hmem b
  | cons a as ih =>
    cases bs with
    | nil => simpa using hmem a
    | cons b bs =>
      have hab : time a = time b := by
        apply Instant.le_antisymm
        · rcases List.mem_cons.1 ((hmem a).1 List.mem_cons_self) with rfl | hmem
          · exact Instant.le_refl _
          · exact (List.pairwise_cons.1 hb).1 a hmem
        · rcases List.mem_cons.1 ((hmem b).2 List.mem_cons_self) with rfl | hmem
          · exact Instant.le_refl _
          · exact (List.pairwise_cons.1 ha).1 b hmem
      have heads := h (time b)
      simp only [List.filter_cons, hab, decide_true, if_true, List.cons.injEq] at heads
      obtain ⟨rfl, -⟩ := heads
      have tails : ∀ t, as.filter (fun a => time a = t) = bs.filter fun a => time a = t := by
        intro t
        have ht := h t
        by_cases hat : time a = t
        · simpa [List.filter_cons, hat] using ht
        · simpa [List.filter_cons, hat] using ht
      rw [ih (List.pairwise_cons.1 ha).2 (List.pairwise_cons.1 hb).2 tails (mem_iff_of_ties tails)]

namespace LatestFirst

theorem unique (h : LatestFirst time items listed) (h' : LatestFirst time items listed') : listed = listed' :=
  eq_of_ties h.descending h'.descending fun t => (h.ties t).trans (h'.ties t).symm

/-- Items in descending order are listed as they stand. -/
theorem of_descending (h : items.Pairwise fun a b => time b ≤ time a) : LatestFirst time items items :=
  ⟨.refl items, h, fun _ => rfl⟩

/-- Items may be picked from a listing. -/
theorem filter (h : LatestFirst time items listed) (p : α → Bool) :
    LatestFirst time (items.filter p) (listed.filter p) where
  perm := h.perm.filter p
  descending := h.descending.filter p
  ties t := by
    have hcomm (l : List α) :
        (l.filter p).filter (fun a => time a = t) = (l.filter fun a => time a = t).filter p := by
      rw [List.filter_filter, List.filter_filter]
      congr 1
      funext a
      exact Bool.and_comm _ _
    rw [hcomm, hcomm, h.ties]

/-- What stands in front of a listing are the latest of the items. -/
theorem take (h : LatestFirst time items listed) (n : Nat) : Latest time items (listed.take n) (listed.drop n) where
  perm := by
    rw [List.take_append_drop]
    exact h.perm
  descending := h.descending.sublist (List.take_sublist n listed)
  ties t := by
    rw [← h.ties]
    exact (List.take_prefix n listed).filter _
  later := by
    have hlisted := h.descending
    rw [← List.take_append_drop n listed, List.pairwise_append] at hlisted
    exact hlisted.2.2

end LatestFirst

theorem latestFirst_newestFirst (time : α → Instant) (items : List α) :
    LatestFirst time items (newestFirst time items) := by
  have htrans : ∀ a b c : α, decide (time b ≤ time a) = true → decide (time c ≤ time b) = true →
      decide (time c ≤ time a) = true := by
    intro a b c hab hbc
    simp only [decide_eq_true_eq] at hab hbc ⊢
    exact Instant.le_trans hbc hab
  have htotal : ∀ a b : α, (decide (time b ≤ time a) || decide (time a ≤ time b)) = true := by
    intro a b
    simpa using Instant.le_total (time b) (time a)
  have hperm : (newestFirst time items).Perm items := List.mergeSort_perm items _
  refine ⟨hperm, ?_, fun t => ?_⟩
  · apply (List.pairwise_mergeSort htrans htotal items).imp
    intro a b hab
    exact of_decide_eq_true hab
  · refine filter_mergeSort htrans htotal (fun a b ha hb => ?_) items
    rw [decide_eq_true_eq] at ha hb ⊢
    rw [ha, hb]
    exact Instant.le_refl t

theorem newestFirst_filter (p : α → Bool) : newestFirst time (items.filter p) = (newestFirst time items).filter p :=
  (latestFirst_newestFirst time _).unique ((latestFirst_newestFirst time items).filter p)

theorem mem_newestFirst {a : α} : a ∈ newestFirst time items ↔ a ∈ items :=
  (latestFirst_newestFirst time items).perm.mem_iff

end Fulfilment
