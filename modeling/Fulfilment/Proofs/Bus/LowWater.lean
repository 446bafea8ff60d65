import Fulfilment.Bus.Flow
import Fulfilment.Proofs.Bus.Lane

/-!
# The low-water mark

Messages of a partition are done in any order, well or not, and commits fail or not. Through all of it the lane of the
partition holds the offsets that are running, its mark is the lowest of them, or behind all that was received, and the
position passed last is the mark (`Flow.Kept`, kept by each event in `Flow.Kept.receive` and `Flow.Kept.finish`).
So no position is ever ahead of a message that is not done, and none is left out in the end: `Flow.run_positions`.
-/

namespace Fulfilment

namespace Flow

/-- The lowest offset that is running, or else the next to be received. -/
def lowWater (f : Flow) : Nat := f.running.headD f.received

def finished (f : Flow) : List Nat := f.done.map (·.1)

/-- The positions passed to the committer. -/
def passed (f : Flow) : List Int := f.positions.map (·.1)

def lane (p : Plan) (f : Flow) : Lane := f.tracker.lane p.topic p.partition

/-- The messages handed to the handler by a run, in order: what each event adds to those that are running. -/
def handed (p : Plan) : Flow → List Event → List Nat
  | _, [] => []
  | f, event :: rest =>
    match step? p f event with
    | some f' => f'.running.drop f.running.length ++ handed p f' rest
    | none => []

theorem lane_finish (p : Plan) (f : Flow) (o : Nat) (succeeded committed : Bool) :
    (f.finish p o succeeded committed).lane p = ((f.lane p).complete o).1 :=
  Tracker.lane_put_self ..

theorem passed_finish (p : Plan) (f : Flow) (o : Nat) (succeeded committed : Bool) :
    (f.finish p o succeeded committed).passed = f.passed ++ ((f.lane p).complete o).2.handed?.toList := by
  show (f.positions ++ ((f.lane p).complete o).2.handed?.toList.map (·, committed)).map (·.1) = _
  rw [List.map_append, List.map_map]
  exact congrArg (f.passed ++ ·) (List.map_id _)

/-- What an event that may happen does. -/
theorem step_cases {p : Plan} {f f' : Flow} {event : Event} (h : step? p f event = some f') :
    (event = .receive ∧ f.received < p.total ∧ f.running.length < max 1 p.concurrency ∧ f' = f.receive p) ∨
      ∃ o succeeded committed, event = .finish o succeeded committed ∧ o ∈ f.running ∧
        ((f.lane p).complete o).2 ≠ .panicked .overflow ∧ f' = f.finish p o succeeded committed := by
  cases event with
  | receive =>
    simp only [step?, Option.ite_none_right_eq_some, Option.some.injEq] at h
    exact .inl ⟨rfl, h.1.1, h.1.2, h.2.symm⟩
  | finish o succeeded committed =>
    simp only [step?, Option.ite_none_right_eq_some, Option.some.injEq] at h
    exact .inr ⟨o, succeeded, committed, rfl, h.1.1, h.1.2, h.2.symm⟩

/-- What holds of a flow at all times. -/
structure Kept (p : Plan) (f : Flow) : Prop where
  increasing : f.running.Pairwise (· < ·)
  accounted : (f.running ++ f.finished).Perm (List.range f.received)
  received_le : f.received ≤ p.total
  room : f.running.length ≤ max 1 p.concurrency
  inFlight : (f.lane p).inFlight = f.running.map Int.ofNat
  highest : ∀ h, (f.lane p).highestDone = some h → ∃ o ∈ f.finished, h = (o : Int)
  le_highest : ∀ o ∈ f.finished, ∃ h, (f.lane p).highestDone = some h ∧ (o : Int) ≤ h
  mark : f.received ≠ 0 → (f.lane p).mark = some (f.lowWater : Int)
  unmarked : f.received = 0 → (f.lane p).mark = none
  rising : f.passed.Pairwise (· < ·)
  passed_le : ∀ q ∈ f.passed, q ≤ f.lowWater
  last : f.passed.getLastD 0 = f.lowWater

private theorem headD_le {os : List Nat} {n o : Nat} (h : os.Pairwise (· < ·)) (ho : o ∈ os) : os.headD n ≤ o := by
  cases os with
  | nil => cases ho
  | cons x xs =>
    rcases List.mem_cons.1 ho with rfl | hx
    · exact Nat.le_refl _
    · exact Nat.le_of_lt ((List.pairwise_cons.1 h).1 o hx)

private theorem erase_map_ofNat (os : List Nat) (o : Nat) :
    (os.map Int.ofNat).erase (o : Int) = (os.erase o).map Int.ofNat := by
  have hp : ((fun x : Int => x == (o : Int)) ∘ Int.ofNat) = fun x : Nat => x == o := by
    funext x
    show ((x : Int) == (o : Int)) = (x == o)
    rw [Bool.eq_iff_iff, beq_iff_eq, beq_iff_eq, Int.natCast_inj]
  rw [List.erase_eq_eraseP', List.eraseP_map, hp, ← List.erase_eq_eraseP']

namespace Kept

variable {p : Plan} {f : Flow} {o : Nat}

theorem mem_range (h : f.Kept p) : o < f.received ↔ o ∈ f.running ∨ o ∈ f.finished := by
  rw [← List.mem_range, ← h.accounted.mem_iff, List.mem_append]

theorem lt_received (h : f.Kept p) (ho : o ∈ f.running) : o < f.received := h.mem_range.2 (.inl ho)

theorem lowWater_le (h : f.Kept p) (ho : o ∈ f.running) : f.lowWater ≤ o := headD_le h.increasing ho

theorem lowWater_le_received (h : f.Kept p) : f.lowWater ≤ f.received := by
  cases hr : f.running with
  | nil =>
    have hw : f.lowWater = f.received := by
      unfold lowWater
      rw [hr]
      rfl
    exact Nat.le_of_eq hw
  | cons x xs =>
    have hx : x ∈ f.running := by
      rw [hr]
      exact List.mem_cons_self ..
    exact Nat.le_of_lt (Nat.lt_of_le_of_lt (h.lowWater_le hx) (h.lt_received hx))

theorem start (p : Plan) : Flow.start.Kept p where
  increasing := List.Pairwise.nil
  accounted := List.Perm.refl _
  received_le := Nat.zero_le _
  room := Nat.zero_le _
  inFlight := rfl
  highest _ h := by cases h
  le_highest _ h := by cases h
  mark h := absurd rfl h
  unmarked _ := rfl
  rising := List.Pairwise.nil
  passed_le _ h := by cases h
  last := rfl

private theorem lowWater_receive (p : Plan) (f : Flow) : (f.receive p).lowWater = f.lowWater := by
  unfold receive lowWater
  cases f.running <;> rfl

private theorem lane_receive (p : Plan) (f : Flow) : (f.receive p).lane p = (f.lane p).begin f.received :=
  Tracker.lane_put_self ..

private theorem begin_eq (h : f.Kept p) :
    (f.lane p).begin f.received =
      ⟨(f.lane p).inFlight ++ [(f.received : Int)], (f.lane p).highestDone, some (f.lowWater : Int)⟩ := by
  have hlt : ∀ x ∈ (f.lane p).inFlight, x < f.received := by
    intro x hx
    rw [h.inFlight, List.mem_map] at hx
    obtain ⟨o, ho, rfl⟩ := hx
    exact Int.ofNat_lt.2 (h.lt_received ho)
  by_cases hr : f.received = 0
  · -- nothing was done yet, so a lane that starts over has nothing to forget
    have hw : f.lowWater = f.received := by
      have := h.lowWater_le_received
      omega
    have hh : (f.lane p).highestDone = none := by
      refine Option.eq_none_iff_forall_ne_some.2 ?_
      intro x hx
      obtain ⟨o, ho, -⟩ := h.highest x hx
      have := h.mem_range.2 (.inr ho)
      omega
    rw [Lane.begin_of_mark_eq_none (h.unmarked hr), Lane.insertOffset_of_lt hlt, hh, hw]
  · have hm := h.mark hr
    rw [Lane.begin_of_mark_le hm (Int.ofNat_le.2 h.lowWater_le_received), Lane.insertOffset_of_lt hlt, hm]

/-- A message that is received is behind all that is running, and moves no position. -/
theorem receive (h : f.Kept p) (hr : f.received < p.total) (room : f.running.length < max 1 p.concurrency) :
    (f.receive p).Kept p := by
  have hlane : (f.receive p).lane p = _ := (lane_receive p f).trans h.begin_eq
  have hw : (f.receive p).lowWater = f.lowWater := lowWater_receive p f
  constructor
  case increasing =>
    show (f.running ++ [f.received]).Pairwise (· < ·)
    rw [List.pairwise_append]
    refine ⟨h.increasing, List.pairwise_singleton .., ?_⟩
    intro o ho o' ho'
    rw [List.mem_singleton.1 ho']
    exact h.lt_received ho
  case accounted =>
    -- what is received joins the messages that are running, in front of those that are done
    show (f.running ++ [f.received] ++ f.finished).Perm (List.range (f.received + 1))
    rw [List.range_succ, List.append_assoc]
    exact ((List.perm_append_comm).append_left f.running).trans
      (List.append_assoc .. ▸ h.accounted.append_right [f.received])
  case received_le => exact hr
  case room =>
    show (f.running ++ [f.received]).length ≤ max 1 p.concurrency
    rw [List.length_append]
    exact room
  case inFlight =>
    rw [hlane]
    show (f.lane p).inFlight ++ [(f.received : Int)] = (f.running ++ [f.received]).map Int.ofNat
    rw [h.inFlight, List.map_append]
    rfl
  case highest =>
    rw [hlane]
    exact h.highest
  case le_highest =>
    rw [hlane]
    exact h.le_highest
  case mark =>
    intro _
    rw [hlane, hw]
  case unmarked =>
    intro h0
    cases h0
  case rising => exact h.rising
  case passed_le =>
    rw [hw]
    exact h.passed_le
  case last =>
    rw [hw]
    exact h.last

private theorem accounted_finish (h : f.Kept p) (ho : o ∈ f.running) :
    (f.running.erase o ++ (f.finished ++ [o])).Perm (List.range f.received) := by
  have hp : (f.running.erase o ++ (f.finished ++ [o])).Perm (o :: f.running.erase o ++ f.finished) := by
    rw [← List.append_assoc]
    exact List.perm_append_comm
  exact hp.trans (((List.perm_cons_erase ho).symm.append_right f.finished).trans h.accounted)

/-- When `o` is the only message that is running, the highest offset done is the last received once `o` is done. -/
private theorem top_finish (h : f.Kept p) (ho : o ∈ f.running) (hn : f.running.erase o = []) :
    (f.lane p).top o + 1 = f.received := by
  have hmem : ∀ x : Nat, x < f.received ↔ x ∈ f.finished ∨ x = o := by
    intro x
    rw [← List.mem_range, ← (h.accounted_finish ho).mem_iff, hn, List.nil_append, List.mem_append,
      List.mem_singleton]
  have hlt : (f.lane p).top o < f.received := by
    rcases (f.lane p).top_attained o with ht | hd
    · rw [ht]
      exact Int.ofNat_lt.2 (h.lt_received ho)
    · obtain ⟨x, hx, he⟩ := h.highest _ hd
      rw [he]
      exact Int.ofNat_lt.2 (h.mem_range.2 (.inr hx))
  have hpos : 0 < f.received := Nat.lt_of_le_of_lt (Nat.zero_le o) (h.lt_received ho)
  -- the last message received was done before, or is the one done now
  have hge : ((f.received - 1 : Nat) : Int) ≤ (f.lane p).top o := by
    rcases (hmem (f.received - 1)).1 (by omega) with hd | rfl
    · obtain ⟨x, hx, hle⟩ := h.le_highest _ hd
      exact Int.le_trans hle (Lane.highestDone_le_top hx o)
    · exact (f.lane p).le_top _
  omega

theorem lowWater_finish_le (h : f.Kept p) (o : Nat) (succeeded committed : Bool) :
    f.lowWater ≤ (f.finish p o succeeded committed).lowWater := by
  show f.lowWater ≤ (f.running.erase o).headD f.received
  cases he : f.running.erase o with
  | nil => exact h.lowWater_le_received
  | cons x xs =>
    have hx : x ∈ f.running.erase o := by
      rw [he]
      exact List.mem_cons_self ..
    exact h.lowWater_le (List.mem_of_mem_erase hx)

private theorem mem_inFlight (h : f.Kept p) (ho : o ∈ f.running) : (o : Int) ∈ (f.lane p).inFlight := by
  rw [h.inFlight]
  exact List.mem_map_of_mem ho

/-- The position that completing a message works out is the low-water mark. -/
private theorem position_finish (h : f.Kept p) (ho : o ∈ f.running) (succeeded committed : Bool) {q : Int}
    (hq : Lane.position? ((f.lane p).inFlight.erase o) ((f.lane p).top o) = some q) :
    q = (f.finish p o succeeded committed).lowWater := by
  show q = ((f.running.erase o).headD f.received : Nat)
  rw [h.inFlight, erase_map_ofNat] at hq
  cases he : f.running.erase o with
  | nil =>
    rw [he, List.map_nil, Lane.position?_nil] at hq
    exact hq.1.trans (h.top_finish ho he)
  | cons x xs =>
    rw [he, List.map_cons, Lane.position?_cons, Option.some.injEq] at hq
    exact hq.symm

/-- Completing a message that is running moves the mark with the low-water mark. -/
private theorem complete_eq (h : f.Kept p) (ho : o ∈ f.running)
    (calm : ((f.lane p).complete o).2 ≠ .panicked .overflow) (succeeded committed : Bool) :
    (f.lane p).complete o =
      (⟨(f.running.erase o).map Int.ofNat, some ((f.lane p).top o),
          some ((f.finish p o succeeded committed).lowWater : Int)⟩,
        .handed (if f.lowWater < (f.finish p o succeeded committed).lowWater then
          some ((f.finish p o succeeded committed).lowWater : Int)
        else none)) := by
  have hpos : f.received ≠ 0 := by
    have := h.lt_received ho
    omega
  have hm := h.mem_inFlight ho
  cases hp : Lane.position? ((f.lane p).inFlight.erase o) ((f.lane p).top o) with
  | none => exact absurd (congrArg Prod.snd (Lane.complete_of_overflow hm hp)) calm
  | some q =>
    cases h.position_finish ho succeeded committed hp
    rw [Lane.complete_of_mem hm (h.mark hpos) hp (Int.ofNat_le.2 (h.lowWater_finish_le o succeeded committed)),
      h.inFlight, erase_map_ofNat]
    simp only [Int.ofNat_lt]

/-- A message that is running may be done at any time. -/
theorem step_finish (h : f.Kept p) (ho : o ∈ f.running) (hle : p.total ≤ max64) (succeeded committed : Bool) :
    step? p f (.finish o succeeded committed) = some (f.finish p o succeeded committed) := by
  refine if_pos ⟨ho, fun panics => ?_⟩
  obtain ⟨he, hlt⟩ : (f.lane p).inFlight.erase o = [] ∧ max64 < (f.lane p).top o + 1 :=
    Lane.position?_eq_none.1 (Lane.of_panicked panics)
  rw [h.inFlight, erase_map_ofNat, List.map_eq_nil_iff] at he
  have := h.top_finish ho he
  have := h.received_le
  omega

/-- Positions that rise up to `m` rise up to `w` when that is passed on if it is ahead. -/
private theorem passed_append {qs : List Int} {m w : Nat} (rising : qs.Pairwise (· < ·)) (passed_le : ∀ q ∈ qs, q ≤ m)
    (last : qs.getLastD 0 = m) (hle : m ≤ w) :
    let qs' := qs ++ (if m < w then some (w : Int) else none).toList
    qs'.Pairwise (· < ·) ∧ (∀ q ∈ qs', q ≤ w) ∧ qs'.getLastD 0 = w := by
  by_cases hlt : m < w
  · rw [if_pos hlt]
    refine ⟨?_, ?_, List.getLastD_concat⟩
    · show (qs ++ [(w : Int)]).Pairwise (· < ·)
      rw [List.pairwise_append]
      refine ⟨rising, List.pairwise_singleton .., ?_⟩
      intro q hq q' hq'
      rw [List.mem_singleton.1 hq']
      have := passed_le q hq
      omega
    · intro q hq
      rcases List.mem_append.1 hq with hq | hq
      · have := passed_le q hq
        omega
      · exact Int.le_of_eq (List.mem_singleton.1 hq)
  · have hmw : m = w := by omega
    rw [if_neg hlt, ← hmw]
    intro qs'
    have hqs : qs' = qs := List.append_nil qs
    rw [hqs]
    exact ⟨rising, passed_le, last⟩

/-- A message that is done moves the mark, and a position is passed on, just when the low-water mark has moved. -/
theorem finish (h : f.Kept p) (ho : o ∈ f.running) (calm : ((f.lane p).complete o).2 ≠ .panicked .overflow)
    (succeeded committed : Bool) : (f.finish p o succeeded committed).Kept p := by
  have he := h.complete_eq ho calm succeeded committed
  have hle := h.lowWater_finish_le (p := p) o succeeded committed
  have hpassed := passed_finish p f o succeeded committed
  have hlane := lane_finish p f o succeeded committed
  have hfinished : (f.finish p o succeeded committed).finished = f.finished ++ [o] := List.map_append
  obtain ⟨w, hw⟩ : ∃ w, (f.finish p o succeeded committed).lowWater = w := ⟨_, rfl⟩
  rw [hw] at he hle
  rw [he] at hpassed hlane
  obtain ⟨rising, passed_le, last⟩ := passed_append h.rising h.passed_le h.last hle
  constructor
  case increasing => exact h.increasing.sublist List.erase_sublist
  case accounted =>
    rw [hfinished]
    exact h.accounted_finish ho
  case received_le => exact h.received_le
  case room => exact Nat.le_trans List.erase_sublist.length_le h.room
  case inFlight =>
    rw [hlane]
    rfl
  case highest =>
    rw [hlane, hfinished]
    intro x hx
    cases hx
    rcases (f.lane p).top_attained o with ht | hd
    · exact ⟨o, List.mem_append_right _ (List.mem_singleton_self o), ht⟩
    · obtain ⟨x, hx, he⟩ := h.highest _ hd
      exact ⟨x, List.mem_append_left _ hx, he⟩
  case le_highest =>
    -- the new highest is not below the old one, nor below what is done now
    rw [hlane, hfinished]
    intro x hx
    refine ⟨(f.lane p).top o, rfl, ?_⟩
    rcases List.mem_append.1 hx with hx | hx
    · obtain ⟨x', hx', hle'⟩ := h.le_highest x hx
      exact Int.le_trans hle' (Lane.highestDone_le_top hx' o)
    · rw [List.mem_singleton.1 hx]
      exact (f.lane p).le_top o
  case mark =>
    intro _
    rw [hlane, hw]
  case unmarked =>
    intro h0
    have hpos : f.received = 0 := h0
    have := h.lt_received ho
    omega
  case rising =>
    rw [hpassed]
    exact rising
  case passed_le =>
    rw [hpassed, hw]
    exact passed_le
  case last =>
    rw [hpassed, hw]
    exact last

/-- Each event keeps it. -/
theorem step (h : f.Kept p) {f' : Flow} {event : Event} (hs : step? p f event = some f') : f'.Kept p := by
  rcases step_cases hs with ⟨-, hr, room, rfl⟩ | ⟨o, succeeded, committed, -, ho, calm, rfl⟩
  · exact h.receive hr room
  · exact h.finish ho calm succeeded committed

/-- When nothing is running, the position passed last is behind all that was received. -/
theorem getLast?_passed (h : f.Kept p) (hr : f.running = []) (hpos : 0 < f.received) :
    f.passed.getLast? = some (f.received : Int) := by
  have hlast := h.last
  have hw : f.lowWater = f.received := by
    unfold lowWater
    rw [hr]
    rfl
  rw [hw, List.getLastD_eq_getLast?] at hlast
  cases he : f.passed.getLast? with
  | none =>
    rw [he] at hlast
    have : (0 : Int) = f.received := hlast
    omega
  | some q =>
    rw [he] at hlast
    rw [← hlast]
    rfl

end Kept

variable {p : Plan} {f f' : Flow} {events : List Event}

private theorem handed_cons {event : Event} (hs : step? p f event = some f') :
    handed p f (event :: events) = f'.running.drop f.running.length ++ handed p f' events := by
  simp only [handed, hs]

/-- An event hands over the next message when it receives one, and none otherwise. -/
private theorem drop_running {event : Event} (hs : step? p f event = some f') :
    List.range f.received ++ f'.running.drop f.running.length = List.range f'.received := by
  rcases step_cases hs with ⟨-, -, -, rfl⟩ | ⟨o, succeeded, committed, -, -, -, rfl⟩
  · show _ ++ (f.running ++ [f.received]).drop f.running.length = List.range (f.received + 1)
    rw [List.drop_left, List.range_succ]
  · have hle : (f.running.erase o).length ≤ f.running.length := List.erase_sublist.length_le
    show _ ++ (f.running.erase o).drop f.running.length = _
    rw [List.drop_eq_nil_of_le hle, List.append_nil]
    rfl

theorem Kept.run (h : f.Kept p) (hr : events.foldlM (step? p) f = some f') :
    f'.Kept p ∧ List.range f.received ++ handed p f events = List.range f'.received := by
  induction events generalizing f with
  | nil =>
    cases hr
    exact ⟨h, List.append_nil _⟩
  | cons event rest ih =>
    rw [List.foldlM_cons, Option.bind_eq_bind, Option.bind_eq_some_iff] at hr
    obtain ⟨f₁, hs, hr⟩ := hr
    obtain ⟨hk, hh⟩ := ih (h.step hs) hr
    refine ⟨hk, ?_⟩
    rw [handed_cons hs, ← List.append_assoc, drop_running hs, hh]

/-- After any run: no position that was passed is ahead of a message that is running or was never done, positions
rise, messages were handed over once each and in order, and the last position is behind them all when all of them are
done. Any message that is running may be done next, if only there are 64-bit integers enough for their offsets. -/
theorem run_positions (h : run? p events = some f) :
    (∀ q ∈ f.passed, (∀ o ∈ f.running, q ≤ (o : Int)) ∧ ∀ o : Nat, (o : Int) < q → o ∈ f.finished) ∧
      f.passed.Pairwise (· < ·) ∧
      handed p start events = List.range f.received ∧ (f.running ++ f.finished).Perm (List.range f.received) ∧
      f.received ≤ p.total ∧ f.running.length ≤ max 1 p.concurrency ∧
      (0 < p.total → f.finished.length = p.total → f.passed.getLast? = some (p.total : Int)) ∧
      (p.total ≤ max64 → ∀ o ∈ f.running, ∀ succeeded committed,
        step? p f (.finish o succeeded committed) = some (f.finish p o succeeded committed)) := by
  obtain ⟨hk, hh⟩ := (Kept.start p).run h
  refine ⟨?_, hk.rising, hh, hk.accounted, hk.received_le, hk.room, ?_, fun hle o ho => hk.step_finish ho hle⟩
  · intro q hq
    have hle := hk.passed_le q hq
    constructor
    · intro o ho
      have := hk.lowWater_le ho
      omega
    · intro o ho
      have := hk.lowWater_le_received
      rcases hk.mem_range.1 (show o < f.received by omega) with hr | hd
      · have := hk.lowWater_le hr
        omega
      · exact hd
  · intro hpos hall
    have hlen := hk.accounted.length_eq
    have htotal := hk.received_le
    rw [List.length_append, List.length_range] at hlen
    have hrun : f.running = [] := List.eq_nil_of_length_eq_zero (by omega)
    have hall : f.received = p.total := by
      rw [hrun, List.length_nil] at hlen
      omega
    rw [← hall]
    exact hk.getLast?_passed hrun (by omega)

/-- Three messages, two at a time: the second is done before the first, badly, and no commit succeeds but one. -/
def threeByTwos : Plan := ⟨"t", 0, 3, 2⟩

def outOfOrder : List Event :=
  [.receive, .receive, .finish 1 false false, .receive, .finish 0 true false, .finish 2 true true]

theorem run_positions_of_three :
    ∃ f, run? threeByTwos outOfOrder = some f ∧ f.passed = [2, 3] ∧
      (∀ q ∈ f.passed, (∀ o ∈ f.running, q ≤ (o : Int)) ∧ ∀ o : Nat, (o : Int) < q → o ∈ f.finished) ∧
      f.passed.Pairwise (· < ·) ∧
      handed threeByTwos start outOfOrder = List.range f.received ∧
      (f.running ++ f.finished).Perm (List.range f.received) ∧
      f.received ≤ threeByTwos.total ∧ f.running.length ≤ max 1 threeByTwos.concurrency ∧
      (0 < threeByTwos.total → f.finished.length = threeByTwos.total →
        f.passed.getLast? = some (threeByTwos.total : Int)) ∧
      (threeByTwos.total ≤ max64 → ∀ o ∈ f.running, ∀ succeeded committed,
        step? threeByTwos f (.finish o succeeded committed) = some (f.finish threeByTwos o succeeded committed)) := by
  have h : run? threeByTwos outOfOrder = some ((run? threeByTwos outOfOrder).get (by decide)) :=
    (Option.some_get _).symm
  exact ⟨_, h, by decide, run_positions h⟩

end Flow

end Fulfilment
