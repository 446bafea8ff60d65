import Fulfilment.Bus.Offsets

/-!
# Lanes

What beginning and completing an offset does to a lane. Where its mark is known, a begin at or behind the mark moves
nothing (`Lane.begin_of_mark_le`), and a complete moves the mark to the position it works out, if that is ahead
(`Lane.complete_of_mem`). A complete of any lane comes to one of four things (`Lane.completing`), and where it hands
out a position, that is the lowest offset still in flight, or comes after the highest one done (`Lane.of_handed`).
-/

namespace Fulfilment

namespace Lane

variable {l : Lane} {o q m : Int}

theorem Answer.handed?_eq_some {answer : Answer} {p : Int} :
    answer.handed? = some p ↔ answer = .handed (some p) := by
  cases answer <;> simp only [handed?, Answer.handed.injEq, reduceCtorEq]

theorem insertOffset_of_lt {os : List Int} (h : ∀ x ∈ os, x < o) : insertOffset o os = os ++ [o] := by
  induction os with
  | nil => rfl
  | cons x xs ih =>
    have hx : x < o := h x (List.mem_cons_self ..)
    have hxs : insertOffset o xs = xs ++ [o] := ih fun y hy => h y (List.mem_cons_of_mem _ hy)
    unfold insertOffset
    rw [if_neg (by omega), if_neg (by omega), hxs]
    rfl

theorem insertOffset_of_forall_lt {os : List Int} (h : ∀ x ∈ os, o < x) : insertOffset o os = o :: os := by
  cases os with
  | nil => rfl
  | cons x xs => rw [insertOffset, if_pos (h x (List.mem_cons_self ..))]

theorem begin_of_mark_eq_none (hm : l.mark = none) : l.begin o = ⟨insertOffset o l.inFlight, none, some o⟩ := by
  simp [begin, hm]

theorem begin_of_mark_le (hm : l.mark = some m) (h : m ≤ o) :
    l.begin o = { l with inFlight := insertOffset o l.inFlight } := by
  have : ¬ o < m := by omega
  simp [begin, hm, this]

theorem le_top (l : Lane) (o : Int) : o ≤ l.top o := by
  unfold top
  cases l.highestDone with
  | none => exact Int.le_refl o
  | some h => exact Int.le_max_right h o

theorem highestDone_le_top {x : Int} (hx : l.highestDone = some x) (o : Int) : x ≤ l.top o := by
  rw [top, hx]
  exact Int.le_max_left x o

/-- The highest offset done was done before, or is the one done now. -/
theorem top_attained (l : Lane) (o : Int) : l.top o = o ∨ l.highestDone = some (l.top o) := by
  unfold top
  cases l.highestDone with
  | none => exact .inl rfl
  | some h =>
    rcases Int.le_total h o with hle | hle
    · exact .inl (Int.max_eq_right hle)
    · exact .inr (congrArg some (Int.max_eq_left hle).symm)

theorem mem_insertOffset {os : List Int} : q ∈ insertOffset o os ↔ q = o ∨ q ∈ os := by
  induction os with
  | nil => simp [insertOffset]
  | cons x xs ih =>
    unfold insertOffset
    split
    · rw [List.mem_cons]
    · split
      · rename_i hx
        rw [← hx, List.mem_cons]
        exact ⟨.inr, fun h => h.elim .inl id⟩
      · rw [List.mem_cons, ih, List.mem_cons]
        exact or_left_comm

theorem pairwise_insertOffset {os : List Int} (hp : os.Pairwise (· < ·)) : (insertOffset o os).Pairwise (· < ·) := by
  induction os with
  | nil => exact List.pairwise_singleton ..
  | cons x xs ih =>
    obtain ⟨hx, hxs⟩ := List.pairwise_cons.1 hp
    unfold insertOffset
    split
    · rename_i hlt
      refine List.pairwise_cons.2 ⟨?_, hp⟩
      intro y hy
      rcases List.mem_cons.1 hy with rfl | hy
      · exact hlt
      · exact Int.lt_trans hlt (hx y hy)
    · split
      · exact hp
      · refine List.pairwise_cons.2 ⟨?_, ih hxs⟩
        intro y hy
        rcases mem_insertOffset.1 hy with rfl | hy
        · omega
        · exact hx y hy

theorem begin_of_lt_mark {m : Int} (hm : l.mark = some m) (hlt : o < m) :
    l.begin o = ⟨insertOffset o l.inFlight, none, some o⟩ := by
  simp [begin, hm, hlt]

theorem inFlight_begin (l : Lane) (o : Int) : (l.begin o).inFlight = insertOffset o l.inFlight := by
  unfold begin
  dsimp only
  split <;> split <;> rfl

theorem mark_begin (l : Lane) (o : Int) : (l.begin o).mark = some (l.mark.elim o (min · o)) := by
  cases hm : l.mark with
  | none => rw [begin_of_mark_eq_none hm, Option.elim]
  | some m =>
    rcases Int.lt_or_le o m with hlt | hle
    · rw [begin_of_lt_mark hm hlt, Option.elim, Int.min_eq_right (Int.le_of_lt hlt)]
    · rw [begin_of_mark_le hm hle, Option.elim, Int.min_eq_left hle]
      exact hm

theorem complete_of_not_mem (ho : o ∉ l.inFlight) : l.complete o = (l, .handed none) := by
  unfold complete
  rw [if_neg ho]

/-- All that completing an offset can come to. -/
inductive Completing (l : Lane) (o : Int) : Lane × Answer → Prop
  | unknown (absent : o ∉ l.inFlight) : Completing l o (l, .handed none)
  | moved {p : Int} (present : o ∈ l.inFlight) (position : position? (l.inFlight.erase o) (l.top o) = some p)
      (ahead : ∀ m, l.mark = some m → m < p) :
    Completing l o (⟨l.inFlight.erase o, some (l.top o), some p⟩, .handed (some p))
  | stayed {p m : Int} (present : o ∈ l.inFlight) (position : position? (l.inFlight.erase o) (l.top o) = some p)
      (mark : l.mark = some m) (behind : p ≤ m) :
    Completing l o (⟨l.inFlight.erase o, some (l.top o), l.mark⟩, .handed none)
  | overflowed (present : o ∈ l.inFlight) (position : position? (l.inFlight.erase o) (l.top o) = none) :
    Completing l o (⟨l.inFlight.erase o, some (l.top o), l.mark⟩, .panicked .overflow)

theorem completing (l : Lane) (o : Int) : Completing l o (l.complete o) := by
  by_cases ho : o ∈ l.inFlight
  case neg =>
    rw [complete_of_not_mem ho]
    exact .unknown ho
  case pos =>
    unfold complete
    rw [if_pos ho]
    dsimp only
    cases hp : position? (l.inFlight.erase o) (l.top o) with
    | none => exact .overflowed ho hp
    | some p =>
      dsimp only
      split
      · rename_i hall
        refine .moved ho hp fun m hm => ?_
        rw [hm, Option.all_some] at hall
        exact of_decide_eq_true hall
      · rename_i hall
        cases hm : l.mark with
        | none => exact absurd (hm ▸ rfl) hall
        | some m =>
          rw [← hm]
          refine .stayed ho hp hm (Int.not_lt.1 fun hlt => hall ?_)
          rw [hm, Option.all_some]
          exact decide_eq_true hlt

/-- A complete of an offset in flight puts the mark at the position that it gives, unless that is behind the mark. -/
theorem complete_of_mem {p : Int} (ho : o ∈ l.inFlight) (hm : l.mark = some m)
    (hp : position? (l.inFlight.erase o) (l.top o) = some p) (hle : m ≤ p) :
    l.complete o =
      (⟨l.inFlight.erase o, some (l.top o), some p⟩, .handed (if m < p then some p else none)) := by
  rcases hc : l.complete o with ⟨l', answer⟩
  cases hc ▸ completing l o with
  | unknown absent => exact absurd ho absent
  | moved _ position ahead =>
    cases position.symm.trans hp
    rw [if_pos (ahead m hm)]
  | stayed _ position mark behind =>
    cases position.symm.trans hp
    cases hm.symm.trans mark
    -- the position is not ahead of the mark, so it is the mark
    rw [if_neg (Int.not_lt.2 behind), hm, Int.le_antisymm hle behind]
  | overflowed _ position => cases position.symm.trans hp

/-- Where there is no position, the mark stays. -/
theorem complete_of_overflow (ho : o ∈ l.inFlight) (hp : position? (l.inFlight.erase o) (l.top o) = none) :
    l.complete o = (⟨l.inFlight.erase o, some (l.top o), l.mark⟩, .panicked .overflow) := by
  unfold complete
  rw [if_pos ho]
  dsimp only
  rw [hp]

theorem inFlight_complete (l : Lane) (o : Int) : (l.complete o).1.inFlight = l.inFlight.erase o := by
  rcases hc : l.complete o with ⟨l', answer⟩
  cases hc ▸ completing l o with
  | unknown absent => exact (List.erase_of_not_mem absent).symm
  | moved => rfl
  | stayed => rfl
  | overflowed => rfl

theorem highestDone_complete (ho : o ∈ l.inFlight) : (l.complete o).1.highestDone = some (l.top o) := by
  rcases hc : l.complete o with ⟨l', answer⟩
  cases hc ▸ completing l o with
  | unknown absent => exact absurd ho absent
  | moved => rfl
  | stayed => rfl
  | overflowed => rfl

theorem mark_complete (l : Lane) (o : Int) : (l.complete o).1.mark = (l.complete o).2.handed?.or l.mark := by
  rcases hc : l.complete o with ⟨l', answer⟩
  cases hc ▸ completing l o <;> rfl

theorem of_highestDone_begin {x : Int} (hx : (l.begin o).highestDone = some x) : l.highestDone = some x := by
  cases hm : l.mark with
  | none =>
    rw [begin_of_mark_eq_none hm] at hx
    cases hx
  | some m =>
    rcases Int.lt_or_le o m with hlt | hle
    · rw [begin_of_lt_mark hm hlt] at hx
      cases hx
    · rwa [begin_of_mark_le hm hle] at hx

theorem of_highestDone_complete {x : Int} (hx : (l.complete o).1.highestDone = some x) :
    (x = o ∧ o ∈ l.inFlight) ∨ l.highestDone = some x := by
  by_cases ho : o ∈ l.inFlight
  · rw [highestDone_complete ho] at hx
    cases hx
    exact (l.top_attained o).imp (⟨·, ho⟩) id
  · rw [complete_of_not_mem ho] at hx
    exact .inr hx

/-- What is handed out is the position once the offset is not in flight any more, and is ahead of the mark. -/
theorem of_handed {p : Int} (hp : (l.complete o).2 = .handed (some p)) :
    o ∈ l.inFlight ∧ (∀ m, l.mark = some m → m < p) ∧ position? (l.inFlight.erase o) (l.top o) = some p := by
  rcases hc : l.complete o with ⟨l', answer⟩
  rw [hc] at hp
  cases hp
  cases hc ▸ completing l o with
  | moved present position ahead => exact ⟨present, ahead, position⟩

/-- A complete panics only where there is no position. -/
theorem of_panicked {panic : Panic} (hp : (l.complete o).2 = .panicked panic) :
    position? (l.inFlight.erase o) (l.top o) = none := by
  rcases hc : l.complete o with ⟨l', answer⟩
  rw [hc] at hp
  cases hp
  cases hc ▸ completing l o with
  | overflowed _ position => exact position

/-! ### Positions -/

theorem position?_cons (x : Int) (xs : List Int) (top : Int) : position? (x :: xs) top = some x := rfl

/-- With nothing in flight, the position is behind the highest offset done, where that is an offset. -/
theorem position?_nil {top p : Int} : position? [] top = some p ↔ p = top + 1 ∧ top + 1 ≤ max64 := by
  unfold position?
  rw [Option.ite_none_right_eq_some, Option.some.injEq, and_comm, eq_comm]

theorem position?_eq_none {os : List Int} {top : Int} : position? os top = none ↔ os = [] ∧ max64 < top + 1 := by
  cases os with
  | nil => simp only [position?, ite_eq_right_iff, reduceCtorEq, imp_false, Int.not_le, true_and]
  | cons x xs => simp only [position?, reduceCtorEq, false_and]

/-- The position is not ahead of any offset in flight. -/
theorem position?_le {os : List Int} {top p : Int} (hs : os.Pairwise (· < ·)) (hp : position? os top = some p)
    (hq : q ∈ os) : p ≤ q := by
  cases os with
  | nil => cases hq
  | cons x xs =>
    cases hp
    rcases List.mem_cons.1 hq with rfl | hq
    · exact Int.le_refl q
    · exact Int.le_of_lt ((List.pairwise_cons.1 hs).1 q hq)

end Lane

end Fulfilment
