import Fulfilment.Proofs.Bus.Restart

/-!
# Offsets begun in order

Where the offsets of a partition are begun in increasing order, with or without gaps, no begin takes the position
back. The position handed out last is then exact: once a message is done, it is the lowest offset pending, or comes
right after the highest done (`Lane.Exact`, kept by each event in `Lane.Exact.begin` and `Lane.Exact.complete`). So
none is left behind in the end, in whatever order the messages are done: `Tracker.position_exact`. The one exception
is a highest done that is the last of all 64-bit integers, which has none after it:
`Tracker.position_behind_last_integer`.
-/

namespace Fulfilment

namespace Lane

variable {h : List Event} {l : Lane} {o p q m : Int} {answer : Answer}

/-- The position that the event hands out. -/
def Event.handed? : Event → Option Int
  | .begun _ => none
  | .completed _ answer => answer.handed?

/-- The offsets begun, one after the other. -/
def offsets (h : List Event) : List Int := h.filterMap Event.begun?

/-- Offsets are begun in increasing order, each once. Some may be left out. -/
def InOrder (h : List Event) : Prop := (offsets h).Pairwise (· < ·)

/-- The position handed out last, or the first offset begun where none has been. -/
def latest (h : List Event) : Option Int := (h.reverse.findSome? Event.handed?).or (offsets h).head?

/-- The lowest offset pending, or, where none is, the position behind the highest that is settled. -/
inductive Frontier (h : List Event) : Int → Prop
  | pending {q : Int} (pending : Pending h q) (lowest : ∀ x, Pending h x → q ≤ x) : Frontier h q
  | settled {q : Int} (idle : ∀ x, ¬ Pending h x) (settled : Settled h q) (highest : ∀ x, Settled h x → x ≤ q) :
    Frontier h (q + 1)

/-- The position is behind all that is settled, with nothing pending, and is no offset. -/
structure Beyond (h : List Event) (p : Int) : Prop where
  idle : ∀ q, ¬ Pending h q
  lt : max64 < p

/-! ### What one more event does -/

theorem mem_offsets : q ∈ offsets h ↔ .begun q ∈ h := by
  unfold offsets
  rw [List.mem_filterMap]
  constructor
  · rintro ⟨e, he, hq⟩
    cases e with
    | begun o =>
      cases hq
      exact he
    | completed o answer => cases hq
  · exact fun hq => ⟨_, hq, rfl⟩

theorem offsets_begun : offsets (h ++ [.begun o]) = offsets h ++ [o] := List.filterMap_append

theorem offsets_completed : offsets (h ++ [.completed o answer]) = offsets h := by
  unfold offsets
  rw [List.filterMap_append]
  exact List.append_nil _

theorem InOrder.of_begun (inOrder : InOrder (h ++ [.begun o])) : InOrder h ∧ ∀ q, .begun q ∈ h → q < o := by
  unfold InOrder at inOrder
  rw [offsets_begun, List.pairwise_append] at inOrder
  obtain ⟨before, -, behind⟩ := inOrder
  exact ⟨before, fun q hq => behind q (mem_offsets.2 hq) o (List.mem_singleton_self o)⟩

theorem InOrder.of_completed (inOrder : InOrder (h ++ [.completed o answer])) : InOrder h := by
  unfold InOrder at inOrder
  rwa [offsets_completed] at inOrder

theorem InOrder.le_last {last : Int} (inOrder : InOrder h) (hlast : (offsets h).getLast? = some last)
    (hq : .begun q ∈ h) : q ≤ last := by
  obtain ⟨before, hs⟩ := List.getLast?_eq_some_iff.1 hlast
  unfold InOrder at inOrder
  rw [hs, List.pairwise_append] at inOrder
  rw [← mem_offsets, hs] at hq
  rcases List.mem_append.1 hq with hq | hq
  · exact Int.le_of_lt (inOrder.2.2 q hq last (List.mem_singleton_self last))
  · exact Int.le_of_eq (List.mem_singleton.1 hq)

theorem latest_begun : latest (h ++ [.begun o]) = (latest h).or (some o) := by
  unfold latest
  rw [offsets_begun, List.head?_append, List.reverse_concat, List.findSome?_cons, Option.or_assoc]
  rfl

theorem latest_completed : latest (h ++ [.completed o answer]) = answer.handed?.or (latest h) := by
  unfold latest
  rw [offsets_completed, List.reverse_concat, List.findSome?_cons, Event.handed?]
  cases answer.handed? <;> rfl

theorem Settled.begun (hs : Settled h q) : .begun q ∈ h := by
  obtain ⟨earlier, later, rfl, -⟩ := hs
  exact List.mem_append_right _ List.mem_cons_self

theorem settled_begun : Settled (h ++ [.begun o]) q ↔ q ≠ o ∧ Settled h q := by
  constructor
  · rintro ⟨earlier, later, hs, hl, answer, hd⟩
    rcases split_concat hs with ⟨rfl, -, -⟩ | ⟨rest, rfl, rfl⟩
    · cases hd
    · refine ⟨fun hq => hl ?_, earlier, rest, rfl, fun hr => hl (List.mem_append_left _ hr), answer, ?_⟩
      · exact hq ▸ List.mem_append_right _ (List.mem_singleton_self _)
      · rcases List.mem_append.1 hd with hd | hd
        · exact hd
        · cases List.mem_singleton.1 hd
  · rintro ⟨hne, earlier, later, rfl, hl, answer, hd⟩
    refine ⟨earlier, later ++ [.begun o], by simp, fun hm => ?_, answer, List.mem_append_left _ hd⟩
    rcases List.mem_append.1 hm with hm | hm
    · exact hl hm
    · cases List.mem_singleton.1 hm
      exact hne rfl

theorem Settled.completed (hs : Settled h q) : Settled (h ++ [.completed o answer]) q := by
  obtain ⟨earlier, later, rfl, hl, answer', hd⟩ := hs
  refine ⟨earlier, later ++ [.completed o answer], by simp, fun hm => ?_, answer', List.mem_append_left _ hd⟩
  rcases List.mem_append.1 hm with hm | hm
  · exact hl hm
  · cases List.mem_singleton.1 hm

theorem settled_completed :
    Settled (h ++ [.completed o answer]) q ↔ Settled h q ∨ (q = o ∧ .begun o ∈ h) := by
  constructor
  · rintro ⟨earlier, later, hs, hl, answer', hd⟩
    rcases split_concat hs with ⟨-, -, he⟩ | ⟨rest, rfl, rfl⟩
    · cases he
    · rcases List.mem_append.1 hd with hd | hd
      · exact .inl ⟨earlier, rest, rfl, fun hr => hl (List.mem_append_left _ hr), answer', hd⟩
      · cases List.mem_singleton.1 hd
        exact .inr ⟨rfl, List.mem_append_right _ List.mem_cons_self⟩
  · rintro (hs | ⟨rfl, hb⟩)
    · exact hs.completed
    · refine settled_of_not_pending (List.mem_append_left _ hb) fun hp => ?_
      exact (pending_completed.1 hp).1 rfl

/-! ### The position is exact -/

/-- What the lane of offsets that are begun in order knows besides. -/
structure Exact (h : List Event) (l : Lane) : Prop where
  latest : l.mark = latest h
  mark_le : ∀ m, l.mark = some m → ∀ q ∈ l.inFlight, m ≤ q
  settled : ∀ x, l.highestDone = some x → Settled h x
  highest : ∀ q, Settled h q → ∃ x, l.highestDone = some x ∧ q ≤ x
  idle : l.inFlight = [] → ∀ m, l.mark = some m →
    ∃ x, l.highestDone = some x ∧ (x < max64 → m = x + 1) ∧ (max64 ≤ x → m ≤ x)

/-- The mark is not ahead of an offset that comes after all that was begun. -/
theorem Exact.mark_le_next (exact : Exact h l) (knows : Knows h l) (next : ∀ q, .begun q ∈ h → q < o)
    (hm : l.mark = some m) : m ≤ o := by
  cases hf : l.inFlight with
  | nil =>
    obtain ⟨x, hx, hlt, hge⟩ := exact.idle hf m hm
    have := next x (exact.settled x hx).begun
    rcases Int.lt_or_le x max64 with h' | h'
    · have := hlt h'
      omega
    · have := hge h'
      omega
  | cons q qs =>
    have hq : q ∈ l.inFlight := hf ▸ List.mem_cons_self
    have := next q ((knows.inFlight q).1 hq).begun
    have := exact.mark_le m hm q hq
    omega

theorem Exact.begin (exact : Exact h l) (knows : Knows h l) (next : ∀ q, .begun q ∈ h → q < o) :
    Exact (h ++ [.begun o]) (l.begin o) := by
  have settled_iff : ∀ q, Settled (h ++ [.begun o]) q ↔ Settled h q := by
    intro q
    rw [settled_begun]
    exact ⟨And.right, fun hs => ⟨Int.ne_of_lt (next q hs.begun), hs⟩⟩
  have busy : (l.begin o).inFlight ≠ [] := by
    rw [inFlight_begin]
    exact List.ne_nil_of_mem (mem_insertOffset.2 (.inl rfl))
  cases hm : l.mark with
  | none =>
    have none : ∀ q, .begun q ∉ h := by
      intro q hq
      obtain ⟨p, hp⟩ := exists_standing_of_begun hq
      cases (knows.mark.symm.trans hm).symm.trans hp
    have hbegin := begin_of_mark_eq_none (o := o) hm
    constructor
    case latest => rw [latest_begun, ← exact.latest, hm, hbegin, Option.none_or]
    case mark_le =>
      intro m hm' q hq
      rw [hbegin] at hm' hq
      cases hm'
      rcases mem_insertOffset.1 hq with rfl | hq
      · exact Int.le_refl q
      · exact absurd ((knows.inFlight q).1 hq).begun (none q)
    case settled =>
      intro x hx
      rw [hbegin] at hx
      cases hx
    case highest => exact fun q hq => absurd ((settled_iff q).1 hq).begun (none q)
    case idle => exact fun hf => absurd hf busy
  | some m =>
    have hle : m ≤ o := exact.mark_le_next knows next hm
    have hbegin := begin_of_mark_le hm hle
    constructor
    case latest => rw [latest_begun, ← exact.latest, hm, hbegin, Option.some_or, hm]
    case mark_le =>
      intro m' hm' q hq
      rw [hbegin] at hm' hq
      cases hm.symm.trans hm'
      rcases mem_insertOffset.1 hq with rfl | hq
      · exact hle
      · exact exact.mark_le m hm q hq
    case settled =>
      intro x hx
      rw [hbegin] at hx
      exact (settled_iff x).2 (exact.settled x hx)
    case highest =>
      intro q hq
      rw [hbegin]
      exact exact.highest q ((settled_iff q).1 hq)
    case idle => exact fun hf => absurd hf busy

/-- The position that completing an offset works out is not behind the mark. -/
theorem Exact.mark_le_position (exact : Exact h l) (ho : o ∈ l.inFlight) (hm : l.mark = some m)
    (hp : position? (l.inFlight.erase o) (l.top o) = some p) : m ≤ p := by
  cases hf : l.inFlight.erase o with
  | nil =>
    rw [hf, position?_nil] at hp
    have := exact.mark_le m hm o ho
    have := l.le_top o
    omega
  | cons q qs =>
    rw [hf, position?_cons, Option.some.injEq] at hp
    exact hp ▸ exact.mark_le m hm q (List.mem_of_mem_erase (hf ▸ List.mem_cons_self))

/-- What completing a pending offset hands out, and where it leaves the mark. -/
theorem Exact.complete_of_mem (exact : Exact h l) (ho : o ∈ l.inFlight) (hm : l.mark = some m)
    (hp : position? (l.inFlight.erase o) (l.top o) = some p) :
    l.complete o =
      (⟨l.inFlight.erase o, some (l.top o), some p⟩, .handed (if m < p then some p else none)) :=
  Lane.complete_of_mem ho hm hp (exact.mark_le_position ho hm hp)

theorem Exact.complete (exact : Exact h l) (knows : Knows h l) :
    Exact (h ++ [.completed o (l.complete o).2]) (l.complete o).1 := by
  have latest : (l.complete o).1.mark = Lane.latest (h ++ [.completed o (l.complete o).2]) := by
    rw [latest_completed, mark_complete, exact.latest]
  by_cases ho : o ∈ l.inFlight
  case neg =>
    have settled_iff : ∀ q, Settled (h ++ [.completed o (.handed none)]) q ↔ Settled h q := by
      intro q
      rw [settled_completed]
      refine ⟨fun hs => hs.elim id ?_, .inl⟩
      rintro ⟨rfl, hb⟩
      exact settled_of_not_pending hb fun hp => ho ((knows.inFlight q).2 hp)
    rw [complete_of_not_mem ho] at latest ⊢
    constructor
    case latest => exact latest
    case mark_le => exact exact.mark_le
    case settled => exact fun x hx => (settled_iff x).2 (exact.settled x hx)
    case highest => exact fun q hq => exact.highest q ((settled_iff q).1 hq)
    case idle => exact exact.idle
  case pos =>
    have hb : .begun o ∈ h := ((knows.inFlight o).1 ho).begun
    obtain ⟨m, hm⟩ := exists_standing_of_begun hb
    rw [← knows.mark] at hm
    constructor
    case latest => exact latest
    case mark_le =>
      intro p hp q hq
      rw [inFlight_complete] at hq
      cases hposition : position? (l.inFlight.erase o) (l.top o) with
      | none =>
        rw [(position?_eq_none.1 hposition).1] at hq
        cases hq
      | some p' =>
        rw [exact.complete_of_mem ho hm hposition] at hp
        cases hp
        exact position?_le (knows.increasing.sublist List.erase_sublist) hposition hq
    case settled =>
      intro x hx
      rw [highestDone_complete ho] at hx
      cases hx
      rw [settled_completed]
      rcases l.top_attained o with ht | hd
      · exact .inr ⟨ht, ht ▸ hb⟩
      · exact .inl (exact.settled _ hd)
    case highest =>
      intro q hq
      refine ⟨l.top o, highestDone_complete ho, ?_⟩
      rcases settled_completed.1 hq with hs | ⟨rfl, -⟩
      · obtain ⟨x, hx, hqx⟩ := exact.highest q hs
        exact Int.le_trans hqx (highestDone_le_top hx o)
      · exact l.le_top q
    case idle =>
      intro hf p hp
      rw [inFlight_complete] at hf
      refine ⟨l.top o, highestDone_complete ho, ?_⟩
      cases hposition : position? (l.inFlight.erase o) (l.top o) with
      | none =>
        -- the mark stays where it was, which is not ahead of what is done now
        rw [complete_of_overflow ho hposition] at hp
        cases hm.symm.trans hp
        have := (position?_eq_none.1 hposition).2
        have := exact.mark_le m hm o ho
        have := l.le_top o
        exact ⟨fun _ => by omega, fun _ => by omega⟩
      | some p' =>
        rw [exact.complete_of_mem ho hm hposition] at hp
        cases hp
        rw [hf, position?_nil] at hposition
        exact ⟨fun _ => hposition.1, fun _ => by omega⟩

theorem Run.exact (run : Run h l) (inOrder : InOrder h) : Exact h l := by
  induction run with
  | start =>
    constructor
    case latest => rfl
    case mark_le => exact fun m hm => by cases hm
    case settled => exact fun x hx => by cases hx
    case highest => exact fun q hq => absurd hq.begun List.not_mem_nil
    case idle => exact fun _ m hm => by cases hm
  | begin o run ih =>
    obtain ⟨before, next⟩ := inOrder.of_begun
    exact (ih before).begin run.knows next
  | complete o run ih => exact (ih inOrder.of_completed).complete run.knows

/-- Where something was done, the frontier is the position worked out, or is beyond all offsets. -/
theorem Exact.frontier {top : Int} (exact : Exact h l) (knows : Knows h l) (hd : l.highestDone = some top) :
    (∀ p, position? l.inFlight top = some p → Frontier h p ∧ ¬ Beyond h p) ∧
      (position? l.inFlight top = none → Frontier h (top + 1) ∧ Beyond h (top + 1)) := by
  have settled : l.inFlight = [] → Frontier h (top + 1) ∧ ∀ q, ¬ Pending h q := by
    intro hf
    have idle : ∀ q, ¬ Pending h q := by
      intro q hq
      rw [← knows.inFlight, hf] at hq
      cases hq
    refine ⟨.settled idle (exact.settled top hd) fun q hq => ?_, idle⟩
    obtain ⟨x, hx, hqx⟩ := exact.highest q hq
    cases hd.symm.trans hx
    exact hqx
  refine ⟨fun p hp => ?_, fun hn => ?_⟩
  · cases hf : l.inFlight with
    | nil =>
      rw [hf, position?_nil] at hp
      obtain ⟨rfl, hle⟩ := hp
      exact ⟨(settled hf).1, fun beyond => Int.not_lt.2 hle beyond.lt⟩
    | cons q qs =>
      have increasing : (q :: qs).Pairwise (· < ·) := hf ▸ knows.increasing
      have pending : Pending h q := (knows.inFlight q).1 (hf ▸ List.mem_cons_self)
      rw [hf] at hp
      cases hp
      refine ⟨.pending pending fun x hx => ?_, fun beyond => beyond.idle p pending⟩
      rw [← knows.inFlight, hf] at hx
      exact position?_le increasing (position?_cons p qs top) hx
  · obtain ⟨hf, hlt⟩ := position?_eq_none.1 hn
    obtain ⟨frontier, idle⟩ := settled hf
    exact ⟨frontier, idle, hlt⟩

/-- Completing a pending offset moves the position to the frontier, and hands that out if it moved, unless the
frontier is beyond all offsets. -/
theorem Run.completes (run : Run h l) (inOrder : InOrder h) (ho : Pending h o) :
    let h' := h ++ [.completed o (l.complete o).2]
    ∃ m p, latest h = some m ∧ Frontier h' p ∧
      (¬ Beyond h' p → latest h' = some p ∧ (l.complete o).2 = .handed (if m = p then none else some p)) ∧
      (Beyond h' p → latest h' = some m ∧ (l.complete o).2 = .panicked .overflow) := by
  intro h'
  have exact := run.exact inOrder
  have mem : o ∈ l.inFlight := (run.knows.inFlight o).2 ho
  have exact' : Exact h' (l.complete o).1 := exact.complete run.knows
  have frontier := exact'.frontier (run.complete o).knows (highestDone_complete mem)
  rw [inFlight_complete] at frontier
  obtain ⟨m, hm⟩ := exists_standing_of_begun ho.begun
  rw [← run.knows.mark] at hm
  have stood : latest h = some m := exact.latest.symm.trans hm
  cases hp : position? (l.inFlight.erase o) (l.top o) with
  | some p =>
    obtain ⟨hfrontier, within⟩ := frontier.1 p hp
    refine ⟨m, p, stood, hfrontier, fun _ => ?_, fun beyond => absurd beyond within⟩
    have hle := exact.mark_le_position mem hm hp
    have hc := exact.complete_of_mem mem hm hp
    refine ⟨by rw [← exact'.latest, hc], ?_⟩
    rw [hc]
    dsimp only
    split
    · rw [if_neg (by omega)]
    · rw [if_pos (by omega)]
  | none =>
    obtain ⟨hfrontier, beyond⟩ := frontier.2 hp
    refine ⟨m, l.top o + 1, stood, hfrontier, fun within => absurd beyond within, fun _ => ?_⟩
    have hc := complete_of_overflow mem hp
    exact ⟨by rw [← exact'.latest, hc, hm], by rw [hc]⟩

/-- When nothing is pending any more, the position is behind the offset begun last, or, where none is behind that, not
past it. -/
theorem Run.finishes (run : Run h l) (inOrder : InOrder h) {last : Int} (hlast : (offsets h).getLast? = some last)
    (idle : ∀ q, ¬ Pending h q) :
    ∃ m, latest h = some m ∧ (last < max64 → m = last + 1) ∧ (max64 ≤ last → m ≤ last) := by
  have exact := run.exact inOrder
  have hf : l.inFlight = [] := List.eq_nil_iff_forall_not_mem.2 fun q hq => idle q ((run.knows.inFlight q).1 hq)
  have hb : .begun last ∈ h := mem_offsets.1 (List.mem_of_getLast? hlast)
  obtain ⟨m, hm⟩ := exists_standing_of_begun hb
  rw [← run.knows.mark] at hm
  obtain ⟨x, hx, hlt, hge⟩ := exact.idle hf m hm
  obtain ⟨x', hx', hle⟩ := exact.highest last (settled_of_not_pending hb (idle last))
  cases hx.symm.trans hx'
  -- the highest offset settled is the one begun last
  cases Int.le_antisymm hle (inOrder.le_last hlast (exact.settled x hx).begun)
  exact ⟨m, exact.latest.symm.trans hm, hlt, hge⟩

end Lane

namespace Tracker

open Lane (InOrder latest offsets Frontier Beyond Pending)

/-- Where the offsets of a partition are begun in increasing order, each complete of a pending one brings the latest
position to the frontier, and hands it out exactly if that moved it. Only a frontier beyond all offsets is out of
reach: the complete panics then, and the latest position stays. A complete of any offset that is not pending hands out
nothing. When nothing is pending any more, the latest position is behind the offset begun last, if there is an offset
behind it, and never past what was begun if there is none. -/
theorem position_exact (calls : List Call) (topic : String) (partition : Int)
    (inOrder : InOrder ((play calls).history topic partition)) :
    let h := (play calls).history topic partition
    (∀ o, let answer := ((play calls).tracker.complete topic partition o).2
      let h' := h ++ [.completed o answer]
      (Pending h o → ∃ m p, latest h = some m ∧ Frontier h' p ∧
        (¬ Beyond h' p → latest h' = some p ∧ answer = .handed (if m = p then none else some p)) ∧
        (Beyond h' p → latest h' = some m ∧ answer = .panicked .overflow)) ∧
      (¬ Pending h o → answer = .handed none)) ∧
      ∀ last, (offsets h).getLast? = some last → (∀ q, ¬ Pending h q) →
        ∃ m, latest h = some m ∧ (last < max64 → m = last + 1) ∧ (max64 ≤ last → m ≤ last) := by
  intro h
  have run : Lane.Run h ((play calls).tracker.lane topic partition) := run_history calls topic partition
  refine ⟨fun o => ⟨fun ho => run.completes inOrder ho, fun ho => ?_⟩, fun last => run.finishes inOrder⟩
  rw [← run.knows.inFlight] at ho
  exact congrArg Prod.snd (Lane.complete_of_not_mem ho)

/-- Three messages with gaps between them, done in another order, while another partition is at work. -/
def withGaps : List Call :=
  [.begin "order.created" 0 10, .begin "order.created" 0 13, .begin "order.created" 1 2,
    .complete "order.created" 0 13, .begin "order.created" 0 17, .complete "order.created" 1 2,
    .complete "order.created" 0 10]

theorem position_exact_with_gaps :
    let h := (play withGaps).history "order.created" 0
    let answer := ((play withGaps).tracker.complete "order.created" 0 17).2
    InOrder h ∧ latest h = some 17 ∧ Pending h 17 ∧ answer = .handed (some 18) ∧
      Frontier (h ++ [.completed 17 answer]) 18 ∧ latest (h ++ [.completed 17 answer]) = some 18 := by
  intro h answer
  have inOrder : InOrder h := by
    unfold InOrder
    decide
  have pending : Pending h 17 := by
    rw [← (run_history withGaps "order.created" 0).knows.inFlight]
    decide
  have handed : answer = .handed (some 18) := by decide
  obtain ⟨m, p, hm, frontier, within, beyond⟩ :=
    ((position_exact withGaps "order.created" 0 inOrder).1 17).1 pending
  have stands : latest h = some 17 := by decide
  cases stands.symm.trans hm
  have hp : p = 18 := by
    by_cases hb : Beyond (h ++ [.completed 17 answer]) p
    · cases handed.symm.trans (beyond hb).2
    · have hs := handed.symm.trans (within hb).2
      split at hs
      · cases hs
      · cases hs
        rfl
  cases hp
  have reach : ¬ Beyond (h ++ [.completed 17 answer]) 18 := fun hb => absurd hb.lt (by decide)
  exact ⟨inOrder, stands, pending, handed, frontier, (within reach).1⟩

/-- The message at the last of all 64-bit integers. -/
def atLastInteger : List Call := [.begin "order.created" 0 max64]

/-- When it is done, the latest position is not the one behind it, and none is handed out. -/
theorem position_behind_last_integer :
    let h := (play atLastInteger).history "order.created" 0
    let answer := ((play atLastInteger).tracker.complete "order.created" 0 max64).2
    let h' := h ++ [.completed max64 answer]
    InOrder h' ∧ Pending h max64 ∧ Frontier h' (max64 + 1) ∧ latest h' = some max64 ∧
      latest h' ≠ some (max64 + 1) ∧ answer = .panicked .overflow := by
  intro h answer h'
  have run := run_history atLastInteger "order.created" 0
  have pending : Pending h max64 := by
    rw [← run.knows.inFlight]
    decide
  have panics : answer = .panicked .overflow := by decide
  have hh : h' = [] ++ [.begun max64] ++ [.completed max64 (.panicked .overflow)] := by decide
  have inOrder' : InOrder h' := by
    rw [hh]
    unfold InOrder
    decide
  have stays : latest h' = some max64 := by decide
  have idle : ∀ q, ¬ Pending h' q := by
    intro q hq
    rw [hh, Lane.pending_completed, Lane.pending_begun] at hq
    exact hq.2.elim hq.1 Lane.not_pending_nil
  have begun : ∀ q, .begun q ∈ h' ↔ q = max64 := by
    intro q
    rw [hh, Lane.begun_concat_completed, Lane.begun_concat]
    exact or_iff_right List.not_mem_nil
  have settled : Lane.Settled h' max64 := Lane.settled_of_not_pending ((begun max64).2 rfl) (idle max64)
  have highest : ∀ q, Lane.Settled h' q → q ≤ max64 := fun q hq => Int.le_of_eq ((begun q).1 hq.begun)
  have differs : latest h' ≠ some (max64 + 1) := by decide
  exact ⟨inOrder', pending, .settled idle settled highest, stays, differs, panics⟩

end Tracker

end Fulfilment
