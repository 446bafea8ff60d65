import Fulfilment.Proofs.Bus.History

/-!
# Positions handed out

Whatever was begun, completed and begun again before, and in whatever order: a position is handed out only on
completing an offset that is pending, it is never ahead of one that is, and all that was begun before it was completed
since. It is ahead of all that was handed out since the position was last taken back, and of what it was taken back to
(`Lane.Run.sound`, for trackers `Tracker.complete_hands_out`).
-/

namespace Fulfilment

namespace Lane

variable {h : List Event} {l : Lane} {o p : Int}

/-- The position `p` may be handed out when the offset `o` is completed after a history. -/
structure Sound (h : List Event) (o p : Int) : Prop where
  pending : Pending h o
  le_pending : ∀ q, Pending (h ++ [.completed o (.handed (some p))]) q → p ≤ q
  settled : ∀ q, q < p → .begun q ∈ h → Settled (h ++ [.completed o (.handed (some p))]) q
  ahead_of_handed : ∀ earlier o' q later, h = earlier ++ .completed o' (.handed (some q)) :: later →
    Steady (earlier ++ [.completed o' (.handed (some q))]) later → q < p
  ahead_of_rewound : ∀ earlier q later, h = earlier ++ .begun q :: later → Rewinds earlier q →
    Steady (earlier ++ [.begun q]) later → q < p

/-- Where the position stood since it was last taken back, `p` is ahead of that. -/
private theorem Knows.lt_of_steady (k : Knows h l) (hp : (l.complete o).2 = .handed (some p))
    {earlier later : List Event} {m : Int} (hs : h = earlier ++ later) (hm : standing earlier = some m)
    (steady : Steady earlier later) : m < p := by
  subst hs
  obtain ⟨m', hm', hle⟩ := le_standing k.rising steady hm
  exact Int.lt_of_le_of_lt hle ((of_handed hp).2.1 m' (k.mark.trans hm'))

theorem Run.sound (run : Run h l) (hp : (l.complete o).2 = .handed (some p)) : Sound h o p := by
  have k := run.knows
  obtain ⟨present, -, position⟩ := of_handed hp
  have le_pending : ∀ q, Pending (h ++ [.completed o (.handed (some p))]) q → p ≤ q := by
    intro q hq
    obtain ⟨hne, hq⟩ := pending_completed.1 hq
    have hq : q ∈ l.inFlight.erase o := (List.mem_erase_of_ne hne).2 ((k.inFlight q).2 hq)
    exact position?_le (k.increasing.sublist List.erase_sublist) position hq
  constructor
  case pending => exact (k.inFlight o).1 present
  case le_pending => exact le_pending
  case settled =>
    intro q hq hb
    refine settled_of_not_pending (List.mem_append_left _ hb) fun hpending => ?_
    have := le_pending q hpending
    omega
  case ahead_of_handed =>
    intro earlier o' q later hs steady
    rw [List.append_cons] at hs
    refine k.lt_of_steady hp hs ?_ steady
    rw [standing_concat]
    rfl
  case ahead_of_rewound =>
    rintro earlier q later hs ⟨m, hm, hlt⟩ steady
    rw [List.append_cons] at hs
    refine k.lt_of_steady hp hs ?_ steady
    rw [standing_concat, hm]
    exact congrArg some (Int.min_eq_right (Int.le_of_lt hlt))

end Lane

namespace Tracker

/-- A lane that is put back as it was makes no difference. -/
theorem lane_put_lane (t : Tracker) (topic : String) (partition : Int) (topic' : String) (partition' : Int) :
    (t.put topic partition (t.lane topic partition)).lane topic' partition' = t.lane topic' partition' := by
  by_cases hk : (topic', partition') = (topic, partition)
  · obtain ⟨rfl, rfl⟩ := Prod.mk.inj hk
    exact t.lane_put_self ..
  · exact t.lane_put_ne _ hk

/-- After any calls on a tracker, a position that is handed out for a partition is sound, and completing an offset of
it that is not pending hands out nothing and leaves all lanes as they are. -/
theorem complete_hands_out (calls : List Call) (topic : String) (partition o : Int) :
    let t := (play calls).tracker
    let h := (play calls).history topic partition
    let r := t.complete topic partition o
    (∀ p, r.2 = .handed (some p) → Lane.Sound h o p) ∧
      (¬ Lane.Pending h o →
        r.2 = .handed none ∧ ∀ topic' partition', r.1.lane topic' partition' = t.lane topic' partition') := by
  intro t h r
  have run : Lane.Run h (t.lane topic partition) := run_history calls topic partition
  refine ⟨fun p hp => run.sound hp, fun hn => ?_⟩
  rw [← run.knows.inFlight] at hn
  have hr : r = (t.put topic partition (t.lane topic partition), .handed none) := by
    show (t.put topic partition ((t.lane topic partition).complete o).1, ((t.lane topic partition).complete o).2) = _
    rw [Lane.complete_of_not_mem hn]
  rw [hr]
  exact ⟨rfl, t.lane_put_lane topic partition⟩

/-- Two messages, of which the first is done, and then delivery starts again before them. -/
def takenBack : List Call :=
  [.begin "order.created" 0 20, .begin "order.created" 0 21, .complete "order.created" 0 20,
    .complete "order.created" 0 21, .begin "order.created" 0 15, .begin "order.created" 0 16,
    .complete "order.created" 0 16]

theorem complete_hands_out_taken_back :
    let t := (play takenBack).tracker
    let h := (play takenBack).history "order.created" 0
    let r := t.complete "order.created" 0 20
    (t.complete "order.created" 0 15).2 = .handed (some 17) ∧ Lane.Sound h 15 17 ∧
      ¬ Lane.Pending h 20 ∧ r.2 = .handed none ∧
      ∀ topic partition, r.1.lane topic partition = t.lane topic partition := by
  intro t h r
  have handed : (t.complete "order.created" 0 15).2 = .handed (some 17) := by decide
  have unknown : ¬ Lane.Pending h 20 := by
    rw [← (run_history takenBack "order.created" 0).knows.inFlight]
    decide
  have sound := (complete_hands_out takenBack "order.created" 0 15).1 17 handed
  have silent := (complete_hands_out takenBack "order.created" 0 20).2 unknown
  exact ⟨handed, sound, unknown, silent⟩

end Tracker

end Fulfilment
