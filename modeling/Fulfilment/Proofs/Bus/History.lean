import Fulfilment.Bus.History
import Fulfilment.Proofs.Bus.Lane

/-!
# What a lane knows of its history

A call on a tracker is served by the lane of its partition and makes no difference to any other
(`Tracker.Played.call_self`, `Tracker.Played.call_ne`). So, whatever calls are made, each lane goes through a run of
its own (`Tracker.run_history`). Through any run it holds the offsets that are pending, in increasing order, and its
mark is where the position stands (`Lane.Run.knows`). An offset that was begun and is not pending was completed since
(`Lane.settled_of_not_pending`).
-/

namespace Fulfilment

namespace Lane

variable {h earlier later : List Event} {l : Lane} {e e' : Event} {o q : Int} {answer : Answer}

/-- A run of a fresh lane: what has happened to it, and what it is now. -/
inductive Run : List Event → Lane → Prop
  | start : Run [] .empty
  | begin {h : List Event} {l : Lane} (o : Int) (run : Run h l) : Run (h ++ [.begun o]) (l.begin o)
  | complete {h : List Event} {l : Lane} (o : Int) (run : Run h l) :
    Run (h ++ [.completed o (l.complete o).2]) (l.complete o).1

/-! ### Pending and settled offsets -/

/-- An event of a longer history is the last one, or one of those before. -/
theorem split_concat (hs : h ++ [e] = earlier ++ e' :: later) :
    (later = [] ∧ earlier = h ∧ e' = e) ∨ ∃ rest, later = rest ++ [e] ∧ h = earlier ++ e' :: rest := by
  rcases List.eq_nil_or_concat later with rfl | ⟨rest, last, rfl⟩
  · obtain ⟨rfl, rfl⟩ := List.append_singleton_inj.1 hs
    exact .inl ⟨rfl, rfl, rfl⟩
  · rw [List.concat_eq_append, ← List.cons_append, ← List.append_assoc] at hs
    obtain ⟨rfl, rfl⟩ := List.append_singleton_inj.1 hs
    exact .inr ⟨rest, List.concat_eq_append, rfl⟩

theorem not_pending_nil : ¬ Pending [] q := by
  rintro ⟨earlier, later, hs, -⟩
  cases earlier <;> cases hs

theorem pending_begun : Pending (h ++ [.begun o]) q ↔ q = o ∨ Pending h q := by
  constructor
  · rintro ⟨earlier, later, hs, hl⟩
    rcases split_concat hs with ⟨-, -, he⟩ | ⟨rest, rfl, rfl⟩
    · cases he
      exact .inl rfl
    · exact .inr ⟨earlier, rest, rfl, fun a ha => hl a (List.mem_append_left _ ha)⟩
  · rintro (rfl | ⟨earlier, later, rfl, hl⟩)
    · exact ⟨h, [], rfl, fun a ha => by cases ha⟩
    · refine ⟨earlier, later ++ [.begun o], by simp, fun a ha => ?_⟩
      rcases List.mem_append.1 ha with ha | ha
      · exact hl a ha
      · cases List.mem_singleton.1 ha

theorem pending_completed : Pending (h ++ [.completed o answer]) q ↔ q ≠ o ∧ Pending h q := by
  constructor
  · rintro ⟨earlier, later, hs, hl⟩
    rcases split_concat hs with ⟨-, -, he⟩ | ⟨rest, rfl, rfl⟩
    · cases he
    · refine ⟨?_, earlier, rest, rfl, fun a ha => hl a (List.mem_append_left _ ha)⟩
      rintro rfl
      exact hl answer (List.mem_append_right _ (List.mem_singleton_self _))
  · rintro ⟨hne, earlier, later, rfl, hl⟩
    refine ⟨earlier, later ++ [.completed o answer], by simp, fun a ha => ?_⟩
    rcases List.mem_append.1 ha with ha | ha
    · exact hl a ha
    · cases List.mem_singleton.1 ha
      exact hne rfl

/-- An event of a history has a last occurrence. -/
private theorem exists_last (he : e ∈ h) : ∃ earlier later, h = earlier ++ e :: later ∧ e ∉ later := by
  obtain ⟨later, earlier, hs, hl⟩ := List.eq_append_cons_of_mem (List.mem_reverse.2 he)
  refine ⟨earlier.reverse, later.reverse, ?_, fun hm => hl (List.mem_reverse.1 hm)⟩
  rw [← h.reverse_reverse, hs]
  simp

theorem settled_of_not_pending (hb : .begun q ∈ h) (hn : ¬ Pending h q) : Settled h q := by
  obtain ⟨earlier, later, rfl, hl⟩ := exists_last hb
  refine ⟨earlier, later, rfl, hl, ?_⟩
  rw [← Classical.not_forall_not]
  exact fun hc => hn ⟨earlier, later, rfl, hc⟩

/-! ### Where the position stands -/

theorem standing_concat (h : List Event) (e : Event) : standing (h ++ [e]) = e.moves (standing h) := by
  unfold standing
  rw [List.foldl_append]
  rfl

/-- Once the position stands somewhere, it does so for good. -/
private theorem foldl_moves_some (h : List Event) (p : Int) : ∃ p', h.foldl Event.moves (some p) = some p' := by
  induction h generalizing p with
  | nil => exact ⟨p, rfl⟩
  | cons e rest ih =>
    obtain ⟨p', he⟩ : ∃ p', e.moves (some p) = some p' := by
      cases e with
      | begun o => exact ⟨_, rfl⟩
      | completed o answer =>
        show ∃ p', answer.handed?.or (some p) = some p'
        cases answer.handed? <;> exact ⟨_, rfl⟩
    rw [List.foldl_cons, he]
    exact ih p'

theorem exists_standing_of_begun (hb : .begun o ∈ h) : ∃ p, standing h = some p := by
  obtain ⟨earlier, later, rfl⟩ := List.append_of_mem hb
  unfold standing
  rw [List.foldl_append, List.foldl_cons]
  exact foldl_moves_some later _

/-! ### Runs -/

/-- What a lane knows of its history. -/
structure Knows (h : List Event) (l : Lane) : Prop where
  increasing : l.inFlight.Pairwise (· < ·)
  inFlight : ∀ o, o ∈ l.inFlight ↔ Pending h o
  mark : l.mark = standing h
  /-- Each position handed out was ahead of where it stood. -/
  rising : ∀ earlier o p later, h = earlier ++ .completed o (.handed (some p)) :: later →
    ∀ m, standing earlier = some m → m < p

theorem Run.knows (run : Run h l) : Knows h l := by
  induction run with
  | start =>
    constructor
    case increasing => exact List.Pairwise.nil
    case inFlight =>
      intro q
      exact ⟨fun hq => absurd hq List.not_mem_nil, fun hq => absurd hq not_pending_nil⟩
    case mark => rfl
    case rising =>
      intro earlier q p later hs
      cases earlier <;> cases hs
  | @begin h l o _ ih =>
    constructor
    case increasing =>
      rw [inFlight_begin]
      exact pairwise_insertOffset ih.increasing
    case inFlight =>
      intro q
      rw [inFlight_begin, mem_insertOffset, ih.inFlight, pending_begun]
    case mark =>
      rw [mark_begin, standing_concat, ih.mark]
      rfl
    case rising =>
      intro earlier q p later hs
      rcases split_concat hs with ⟨-, -, he⟩ | ⟨rest, -, hs⟩
      · cases he
      · exact ih.rising earlier q p rest hs
  | @complete h l o _ ih =>
    constructor
    case increasing =>
      rw [inFlight_complete]
      exact ih.increasing.sublist List.erase_sublist
    case inFlight =>
      intro q
      have hnodup : l.inFlight.Nodup := ih.increasing.imp Int.ne_of_lt
      rw [inFlight_complete, hnodup.mem_erase_iff, ih.inFlight, pending_completed]
    case mark =>
      rw [mark_complete, standing_concat, ih.mark]
      rfl
    case rising =>
      intro earlier q p later hs
      rcases split_concat hs with ⟨-, rfl, he⟩ | ⟨rest, -, hs⟩
      · injection he with _ he
        rw [← ih.mark]
        exact (of_handed he.symm).2.1
      · exact ih.rising earlier q p rest hs

/-- While nothing takes the position back, it does not fall, if all that is handed out is ahead of it. -/
theorem le_standing {m : Int}
    (rising : ∀ before o p after, earlier ++ later = before ++ .completed o (.handed (some p)) :: after →
      ∀ m, standing before = some m → m < p)
    (steady : Steady earlier later) (hm : standing earlier = some m) :
    ∃ m', standing (earlier ++ later) = some m' ∧ m ≤ m' := by
  induction later generalizing earlier m with
  | nil => exact ⟨m, by rw [List.append_nil, hm], Int.le_refl m⟩
  | cons e rest ih =>
    obtain ⟨m₁, hm₁, hle⟩ : ∃ m₁, standing (earlier ++ [e]) = some m₁ ∧ m ≤ m₁ := by
      rw [standing_concat, hm]
      cases e with
      | begun o =>
        refine ⟨min m o, rfl, Int.le_min.2 ⟨Int.le_refl m, ?_⟩⟩
        have hs : ¬ Rewinds (earlier ++ []) o := steady [] o rest rfl
        rw [List.append_nil] at hs
        exact Int.not_lt.1 fun hlt => hs ⟨m, hm, hlt⟩
      | completed o answer =>
        cases answer with
        | panicked => exact ⟨m, rfl, Int.le_refl m⟩
        | handed position =>
          cases position with
          | none => exact ⟨m, rfl, Int.le_refl m⟩
          | some p => exact ⟨p, rfl, Int.le_of_lt (rising earlier o p rest rfl m hm)⟩
    rw [List.append_cons] at rising ⊢
    have steady' : Steady (earlier ++ [e]) rest := by
      intro between o rest' hs
      rw [← List.append_cons]
      exact steady (e :: between) o rest' (congrArg (e :: ·) hs)
    obtain ⟨m', hm', hle'⟩ := ih rising steady' hm₁
    exact ⟨m', hm', Int.le_trans hle hle'⟩

end Lane

namespace Tracker

open Lane (Run)

variable {topic : String} {partition : Int}

namespace Call

/-- The partition that the call is made on. -/
def target : Call → String × Int
  | .begin topic partition _ => (topic, partition)
  | .complete topic partition _ => (topic, partition)

/-- What the call does to the lane of its partition, and what happens to that. -/
def serve (l : Lane) : Call → Lane × Lane.Event
  | .begin _ _ o => (l.begin o, .begun o)
  | .complete _ _ o => ((l.complete o).1, .completed o (l.complete o).2)

/-- A call goes on with the run of the lane that it is made on. -/
theorem run_serve {h : List Lane.Event} {l : Lane} (run : Run h l) (c : Call) :
    Run (h ++ [(c.serve l).2]) (c.serve l).1 := by
  cases c with
  | begin topic partition o => exact .begin o run
  | complete topic partition o => exact .complete o run

end Call

namespace Played

theorem history_append (s : Played) (k : String × Int) (e : Lane.Event) (t : Tracker) :
    (Played.mk t (s.events ++ [(k, e)])).history topic partition =
      if k = (topic, partition) then s.history topic partition ++ [e] else s.history topic partition := by
  unfold history
  by_cases hk : k = (topic, partition)
  · simp [hk]
  · simp [hk]

/-- What is seen of a partition: what has happened to its lane, and what the lane is now. -/
def view (s : Played) (topic : String) (partition : Int) : List Lane.Event × Lane :=
  (s.history topic partition, s.tracker.lane topic partition)

/-- A call serves one lane, and says what happened to it. -/
theorem call_eq (s : Played) (c : Call) :
    s.call c =
      ⟨s.tracker.put c.target.1 c.target.2 (c.serve (s.tracker.lane c.target.1 c.target.2)).1,
        s.events ++ [(c.target, (c.serve (s.tracker.lane c.target.1 c.target.2)).2)]⟩ := by
  cases c <;> rfl

theorem call_self {s : Played} {c : Call} (hc : c.target = (topic, partition)) :
    (s.call c).view topic partition =
      (s.history topic partition ++ [(c.serve (s.tracker.lane topic partition)).2],
        (c.serve (s.tracker.lane topic partition)).1) := by
  unfold view
  rw [call_eq, hc, history_append, if_pos rfl, lane_put_self]

theorem call_ne {s : Played} {c : Call} (hc : c.target ≠ (topic, partition)) :
    (s.call c).view topic partition = s.view topic partition := by
  have hne : (topic, partition) ≠ (c.target.1, c.target.2) := Ne.symm hc
  unfold view
  rw [call_eq, history_append, if_neg hc, lane_put_ne _ _ hne]

theorem run_call {s : Played} (run : Run (s.history topic partition) (s.tracker.lane topic partition))
    (c : Call) : Run ((s.call c).history topic partition) ((s.call c).tracker.lane topic partition) := by
  by_cases hc : c.target = (topic, partition)
  · obtain ⟨hhistory, hlane⟩ := Prod.mk.inj (call_self (s := s) hc)
    rw [hhistory, hlane]
    exact Call.run_serve run c
  · obtain ⟨hhistory, hlane⟩ := Prod.mk.inj (call_ne (s := s) hc)
    rw [hhistory, hlane]
    exact run

end Played

/-- Whatever calls are made, each lane goes through a run of its own. -/
theorem run_history (calls : List Call) (topic : String) (partition : Int) :
    Run ((play calls).history topic partition) ((play calls).tracker.lane topic partition) := by
  have hall : ∀ s : Played, Run (s.history topic partition) (s.tracker.lane topic partition) →
      Run ((calls.foldl Played.call s).history topic partition)
        ((calls.foldl Played.call s).tracker.lane topic partition) := by
    induction calls with
    | nil => exact fun s run => run
    | cons c rest ih => exact fun s run => ih (s.call c) (s.run_call run c)
  exact hall ⟨.empty, []⟩ .start

end Tracker

end Fulfilment
