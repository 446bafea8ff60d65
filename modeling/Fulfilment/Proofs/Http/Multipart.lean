import Fulfilment.Http.Multipart

/-!
# The first part of a name

A form is searched for a part by reading its parts one after the other (`Multipart.Parts`) until one has the name. So
what is found is the first part that has it (`Multipart.find_eq_some_iff`). Its data are the bytes up to the next
boundary (`Multipart.First.delimited`), for a text is split at the first place of a mark
(`Multipart.splitOn_eq_some_iff`).
-/

namespace Fulfilment

namespace Http

namespace Multipart

variable {boundary mark text rest before after left body : Bytes} {name : String} {p : Part} {ps : List Part}

/-! ### Marks -/

theorem splitOn_nil : splitOn mark [] = some (before, after) ↔ mark = [] ∧ before = [] ∧ after = [] := by
  unfold splitOn
  by_cases hm : mark = []
  · simp [hm, eq_comm]
  · simp [hm]

/-- A text is split at the first place where the mark stands. -/
theorem splitOn_eq_some_iff :
    splitOn mark text = some (before, after) ↔
      text = before ++ mark ++ after ∧ ∀ i < before.length, ¬ mark <+: text.drop i := by
  induction text generalizing before with
  | nil =>
    rw [splitOn_nil]
    constructor
    · rintro ⟨rfl, rfl, rfl⟩
      simp
    · rintro ⟨h, -⟩
      simpa [and_assoc, and_comm, and_left_comm] using h
  | cons b rest ih =>
    unfold splitOn
    by_cases hp : mark.isPrefixOf (b :: rest) = true
    · have hprefix := List.isPrefixOf_iff_prefix.1 hp
      rw [if_pos hp]
      constructor
      · intro h
        cases h
        exact ⟨(List.prefix_iff_eq_append.1 hprefix).symm, fun i hi => absurd hi (Nat.not_lt_zero i)⟩
      · rintro ⟨htext, first⟩
        -- the mark stands at the very start, so nothing can stand before it
        have hbefore : before = [] := by
          apply Classical.byContradiction
          intro hne
          exact first 0 (List.length_pos_iff.2 hne) hprefix
        rw [htext, hbefore, List.nil_append, List.drop_left]
    · have hprefix : ¬ mark <+: b :: rest := fun h => hp (List.isPrefixOf_iff_prefix.2 h)
      rw [if_neg hp, Option.map_eq_some_iff]
      constructor
      · rintro ⟨⟨before', after'⟩, hs, h⟩
        cases h
        obtain ⟨htext, first⟩ := ih.1 hs
        refine ⟨congrArg (b :: ·) htext, fun i hi => ?_⟩
        cases i with
        | zero => exact hprefix
        | succ i => exact first i (Nat.lt_of_succ_lt_succ hi)
      · rintro ⟨htext, first⟩
        cases before with
        | nil =>
          rw [List.nil_append] at htext
          exact absurd ⟨after, htext.symm⟩ hprefix
        | cons b' before =>
          obtain ⟨rfl, htext'⟩ := List.cons.inj htext
          refine ⟨(before, after), ih.2 ⟨htext', fun i hi => ?_⟩, rfl⟩
          exact first (i + 1) (Nat.succ_lt_succ hi)

/-- The mark does not stand in what is before it. -/
theorem not_infix_of_splitOn (hm : mark ≠ []) (h : splitOn mark text = some (before, after)) :
    ¬ mark <:+: before := by
  obtain ⟨htext, first⟩ := splitOn_eq_some_iff.1 h
  -- a mark in what is before would stand ahead of the first one
  rintro ⟨front, back, hbefore⟩
  refine first front.length ?_ ⟨back ++ mark ++ after, ?_⟩
  · have hpos := List.length_pos_iff.2 hm
    rw [← hbefore, List.length_append, List.length_append]
    omega
  · rw [htext, ← hbefore, List.append_assoc, List.append_assoc, List.append_assoc, List.append_assoc, List.drop_left]

/-! ### Parts -/

/-- What stands between the data of a part and what follows it. -/
def delimiter (boundary : Bytes) : Bytes := lineEnd ++ dashes ++ boundary

theorem delimiter_ne_nil : delimiter boundary ≠ [] := by simp [delimiter, lineEnd]

theorem suffix_of_afterBoundary (h : afterBoundary text = .ok (some rest)) : rest <:+ text := by
  unfold afterBoundary at h
  split at h
  · cases h
  · split at h
    · cases h
    · dsimp only at h
      split at h
      · cases h
        exact (List.drop_suffix 2 _).trans (List.dropWhile_suffix _)
      · cases h

/-- The data of a part are the bytes up to the next boundary. -/
theorem delimited_of_part (h : part boundary text = .ok (p, after)) :
    (∃ front, text = front ++ p.body ++ delimiter boundary ++ after) ∧ ¬ delimiter boundary <:+: p.body := by
  unfold part at h
  split at h
  · cases h
  · rename_i head rest hh
    split at h
    · cases h
    · dsimp only at h
      split at h
      · cases h
      · rename_i hb
        cases h
        obtain ⟨hhead, -⟩ := splitOn_eq_some_iff.1 hh
        obtain ⟨hbody, -⟩ := splitOn_eq_some_iff.1 hb
        refine ⟨⟨head ++ (lineEnd ++ lineEnd), ?_⟩, not_infix_of_splitOn delimiter_ne_nil hb⟩
        rw [hhead, hbody, delimiter]
        simp only [List.append_assoc]

/-- Parts that are read one after the other, the first of them behind a boundary. -/
inductive Parts (boundary : Bytes) : Bytes → List Part → Bytes → Prop
  | none (text : Bytes) : Parts boundary text [] text
  | more {text rest after left : Bytes} {p : Part} {ps : List Part} (opened : afterBoundary text = .ok (some rest))
      (read : part boundary rest = .ok (p, after)) (later : Parts boundary after ps left) :
    Parts boundary text (p :: ps) left

theorem Parts.delimited (h : Parts boundary text (ps ++ [p]) left) :
    (∃ front, text = front ++ p.body ++ delimiter boundary ++ left) ∧ ¬ delimiter boundary <:+: p.body := by
  -- by induction on the parts in front: what is left behind the first of them is a tail of the text
  induction ps generalizing text with
  | nil =>
    cases h with
    | more opened read later =>
      cases later
      obtain ⟨⟨front, hrest⟩, free⟩ := delimited_of_part read
      obtain ⟨line, rfl⟩ := suffix_of_afterBoundary opened
      exact ⟨⟨line ++ front, by rw [hrest]; simp only [List.append_assoc]⟩, free⟩
  | cons q ps ih =>
    cases h with
    | more opened read later =>
      obtain ⟨⟨front, hafter⟩, free⟩ := ih later
      obtain ⟨⟨front', hrest⟩, -⟩ := delimited_of_part read
      obtain ⟨line, rfl⟩ := suffix_of_afterBoundary opened
      refine ⟨⟨line ++ (front' ++ q.body ++ delimiter boundary) ++ front, ?_⟩, free⟩
      rw [hrest, hafter]
      simp only [List.append_assoc]

/-! ### The first of a name -/

/-- The part is the first of its name in a body. -/
structure First (boundary : Bytes) (name : String) (body : Bytes) (p : Part) : Prop where
  named : p.name = some name
  read : ∃ before text passed left, splitOn (dashes ++ boundary) body = some (before, text) ∧
    Parts boundary text (passed ++ [p]) left ∧ ∀ q ∈ passed, q.name ≠ some name

theorem Parts.opens (h : Parts boundary text (p :: ps) left) :
    ∃ rest after, afterBoundary text = .ok (some rest) ∧ part boundary rest = .ok (p, after) ∧
      Parts boundary after ps left := by
  cases h with
  | more opened read later => exact ⟨_, _, opened, read, later⟩

theorem Parts.opens_concat (h : Parts boundary text (ps ++ [p]) left) :
    ∃ rest q after, afterBoundary text = .ok (some rest) ∧ part boundary rest = .ok (q, after) := by
  cases ps with
  | nil =>
    obtain ⟨rest, after, opened, read, -⟩ := Parts.opens h
    exact ⟨rest, p, after, opened, read⟩
  | cons q ps =>
    obtain ⟨rest, after, opened, read, -⟩ := Parts.opens h
    exact ⟨rest, q, after, opened, read⟩

/-- The search goes on as long as parts have other names. -/
theorem findFrom_eq_some_iff :
    findFrom boundary name text = .ok (some p) ↔
      p.name = some name ∧ ∃ passed left, Parts boundary text (passed ++ [p]) left ∧
        ∀ q ∈ passed, q.name ≠ some name := by
  -- one case for each way in which the search ends, and one in which it goes on behind a part of another name
  fun_induction findFrom boundary name text with
  | case1 text e ha =>
    refine iff_of_false (by simp) ?_
    rintro ⟨-, passed, left, parts, -⟩
    obtain ⟨rest, q, after, opened, -⟩ := parts.opens_concat
    cases ha.symm.trans opened
  | case2 text ha =>
    refine iff_of_false (by simp) ?_
    rintro ⟨-, passed, left, parts, -⟩
    obtain ⟨rest, q, after, opened, -⟩ := parts.opens_concat
    cases ha.symm.trans opened
  | case3 text rest ha e hp =>
    refine iff_of_false (by simp) ?_
    rintro ⟨-, passed, left, parts, -⟩
    obtain ⟨rest', q, after, opened, read⟩ := parts.opens_concat
    cases ha.symm.trans opened
    cases hp.symm.trans read
  | case4 text rest ha q after hp hname =>
    have one {q' ps left} (h : Parts boundary text (q' :: ps) left) : q' = q := by
      obtain ⟨rest', after', opened, read, -⟩ := h.opens
      cases ha.symm.trans opened
      cases hp.symm.trans read
      rfl
    constructor
    · intro h
      cases h
      exact ⟨hname, [], after, .more ha hp (.none after), fun _ hq => by cases hq⟩
    · rintro ⟨-, passed, left, parts, others⟩
      cases passed with
      | nil => rw [one parts]
      | cons q' passed =>
        rw [List.forall_mem_cons, one parts] at others
        exact absurd hname others.1
  | case5 text rest ha q after hp hname ih =>
    have one {q' ps left} (h : Parts boundary text (q' :: ps) left) : q' = q ∧ Parts boundary after ps left := by
      obtain ⟨rest', after', opened, read, later⟩ := h.opens
      cases ha.symm.trans opened
      cases hp.symm.trans read
      exact ⟨rfl, later⟩
    rw [ih]
    refine and_congr_right fun named => ?_
    constructor
    · rintro ⟨passed, left, parts, others⟩
      exact ⟨q :: passed, left, .more ha hp parts, List.forall_mem_cons.2 ⟨hname, others⟩⟩
    · rintro ⟨passed, left, parts, others⟩
      cases passed with
      | nil =>
        rw [(one parts).1] at named
        exact absurd named hname
      | cons q' passed => exact ⟨passed, left, (one parts).2, (List.forall_mem_cons.1 others).2⟩

/-- What is found is the first part of the name. -/
theorem find_eq_some_iff : find boundary name body = .ok (some p) ↔ First boundary name body p := by
  unfold find
  cases hs : splitOn (dashes ++ boundary) body with
  | none =>
    constructor
    · intro h
      cases h
    · rintro ⟨-, before, text, passed, left, split, -⟩
      cases hs.symm.trans split
  | some r =>
    rw [findFrom_eq_some_iff]
    constructor
    · rintro ⟨named, passed, left, parts, others⟩
      exact ⟨named, r.1, r.2, passed, left, hs, parts, others⟩
    · rintro ⟨named, before, text, passed, left, split, parts, others⟩
      cases hs.symm.trans split
      exact ⟨named, passed, left, parts, others⟩

theorem First.delimited (h : First boundary name body p) :
    (∃ front left, body = front ++ p.body ++ delimiter boundary ++ left) ∧ ¬ delimiter boundary <:+: p.body := by
  obtain ⟨before, text, passed, left, split, parts, -⟩ := h.read
  obtain ⟨⟨front, htext⟩, free⟩ := parts.delimited
  obtain ⟨hbody, -⟩ := splitOn_eq_some_iff.1 split
  refine ⟨⟨before ++ (dashes ++ boundary) ++ front, left, ?_⟩, free⟩
  rw [hbody, htext]
  simp only [List.append_assoc]

end Multipart

end Http

end Fulfilment
