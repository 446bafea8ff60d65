import Fulfilment.Proofs.Bus.HandingOut

/-!
# Delivery that starts again

The messages of a partition come one after another, but delivery may start again from any message before. As long as
it leaves no gap of messages that were never begun, all that is below a position handed out was handled. A gap can
open only where delivery starts again before all that was begun, while messages from before are pending: the lane
keeps those, so the first completion after it hands out the lowest of them, whatever was not delivered below it
(`Tracker.positions_after_restart`).
-/

namespace Fulfilment

namespace Lane

variable {h : List Event} {l : Lane} {e : Event} {o p q x : Int}

/-- The offset was begun and, after that, completed. -/
def Handled (h : List Event) (o : Int) : Prop :=
  ∃ earlier later answer, h = earlier ++ .begun o :: later ∧ .completed o answer ∈ later

def Event.begun? : Event → Option Int
  | .begun o => some o
  | .completed _ _ => none

/-- The offset begun last. -/
def lastBegun (h : List Event) : Option Int := h.reverse.findSome? Event.begun?

/-- Messages come one after another, except that delivery may start again from any message before. -/
def InTurn (h : List Event) : Prop :=
  ∀ earlier o later, h = earlier ++ .begun o :: later →
    ∀ last, lastBegun earlier = some last → o = last + 1 ∨ o ≤ last

/-- All that was begun comes after the offset, and not right after it. -/
def Apart (h : List Event) (o : Int) : Prop := ∀ q, .begun q ∈ h → o + 1 < q

/-- Whenever delivery starts again apart from all that was begun, nothing is pending. -/
def Calm (h : List Event) : Prop :=
  ∀ earlier o later, h = earlier ++ .begun o :: later → Apart earlier o → ∀ q, ¬ Pending earlier q

/-- From the lowest offset begun up to `x`, none was left out. -/
def Covered (h : List Event) (x : Int) : Prop := ∀ q, (∃ b, .begun b ∈ h ∧ b ≤ q) → q ≤ x → .begun q ∈ h

theorem Settled.handled (hs : Settled h o) : Handled h o := by
  obtain ⟨earlier, later, hs, -, handed, hm⟩ := hs
  exact ⟨earlier, later, handed, hs, hm⟩

theorem Pending.begun (hp : Pending h o) : .begun o ∈ h := by
  obtain ⟨earlier, later, rfl, -⟩ := hp
  exact List.mem_append_right _ (List.mem_cons_self ..)

theorem inTurn_nil : InTurn [] := by
  intro earlier o later hs
  cases earlier <;> cases hs

theorem calm_nil : Calm [] := by
  intro earlier o later hs
  cases earlier <;> cases hs

theorem InTurn.of_append (ht : InTurn (h ++ [e])) : InTurn h := by
  rintro earlier o later rfl
  exact ht earlier o (later ++ [e]) (by simp)

theorem Calm.of_append (hc : Calm (h ++ [e])) : Calm h := by
  rintro earlier o later rfl
  exact hc earlier o (later ++ [e]) (by simp)

theorem InTurn.begun (ht : InTurn h) (turn : ∀ last, lastBegun h = some last → o = last + 1 ∨ o ≤ last) :
    InTurn (h ++ [.begun o]) := by
  intro earlier o' later hs
  rcases split_concat hs with ⟨-, rfl, he⟩ | ⟨rest, -, hs⟩
  · cases he
    exact turn
  · exact ht earlier o' rest hs

theorem InTurn.completed {answer : Answer} (ht : InTurn h) : InTurn (h ++ [.completed o answer]) := by
  intro earlier o' later hs
  rcases split_concat hs with ⟨-, -, he⟩ | ⟨rest, -, hs⟩
  · cases he
  · exact ht earlier o' rest hs

theorem Calm.begun (hc : Calm h) (calm : Apart h o → ∀ q, ¬ Pending h q) : Calm (h ++ [.begun o]) := by
  intro earlier o' later hs
  rcases split_concat hs with ⟨-, rfl, he⟩ | ⟨rest, -, hs⟩
  · cases he
    exact calm
  · exact hc earlier o' rest hs

theorem Calm.completed {answer : Answer} (hc : Calm h) : Calm (h ++ [.completed o answer]) := by
  intro earlier o' later hs
  rcases split_concat hs with ⟨-, -, he⟩ | ⟨rest, -, hs⟩
  · cases he
  · exact hc earlier o' rest hs

theorem lastBegun_begun (h : List Event) (o : Int) : lastBegun (h ++ [.begun o]) = some o := by
  unfold lastBegun
  rw [List.reverse_concat, List.findSome?_cons]
  rfl

theorem lastBegun_completed (h : List Event) (o : Int) (answer : Answer) :
    lastBegun (h ++ [.completed o answer]) = lastBegun h := by
  unfold lastBegun
  rw [List.reverse_concat, List.findSome?_cons]
  rfl

theorem begun_of_lastBegun (hl : lastBegun h = some o) : .begun o ∈ h := by
  obtain ⟨e, he, ho⟩ := List.exists_of_findSome?_eq_some hl
  cases e with
  | begun o' =>
    cases ho
    exact List.mem_reverse.1 he
  | completed o' handed => cases ho

theorem exists_lastBegun (hb : .begun o ∈ h) : ∃ last, lastBegun h = some last := by
  refine Option.isSome_iff_exists.1 (List.findSome?_isSome_iff.2 ?_)
  exact ⟨.begun o, List.mem_reverse.2 hb, rfl⟩

theorem begun_concat : .begun q ∈ h ++ [.begun o] ↔ .begun q ∈ h ∨ q = o := by
  rw [List.mem_append, List.mem_singleton, Event.begun.injEq]

theorem begun_concat_completed {answer : Answer} : .begun q ∈ h ++ [.completed o answer] ↔ .begun q ∈ h := by
  simp

theorem covered_completed {answer : Answer} : Covered (h ++ [.completed o answer]) x ↔ Covered h x := by
  unfold Covered
  simp only [begun_concat_completed]

/-- The position never stands before all that was begun. -/
theorem Run.exists_le_standing (run : Run h l) {m : Int} (hm : standing h = some m) : ∃ b, .begun b ∈ h ∧ b ≤ m := by
  induction run generalizing m with
  | start => cases hm
  | @begin h l o run ih =>
    rw [standing_concat] at hm
    cases hs : standing h with
    | none =>
      rw [hs] at hm
      cases hm
      exact ⟨o, begun_concat.2 (.inr rfl), Int.le_refl o⟩
    | some m' =>
      rw [hs] at hm
      cases hm
      obtain ⟨b, hb, hle⟩ := ih hs
      rcases Int.le_total m' o with h' | h'
      · exact ⟨b, begun_concat.2 (.inl hb), Int.le_min.2 ⟨hle, Int.le_trans hle h'⟩⟩
      · exact ⟨o, begun_concat.2 (.inr rfl), Int.le_min.2 ⟨h', Int.le_refl o⟩⟩
  | @complete h l o run ih =>
    rw [standing_concat, Event.moves] at hm
    cases hp : (l.complete o).2.handed? with
    | none =>
      rw [hp, Option.none_or] at hm
      obtain ⟨b, hb, hle⟩ := ih hm
      exact ⟨b, begun_concat_completed.2 hb, hle⟩
    | some p =>
      rw [hp, Option.some_or] at hm
      cases hm
      rw [Answer.handed?_eq_some] at hp
      have sound := run.sound hp
      obtain ⟨m', hm'⟩ := exists_standing_of_begun sound.pending.begun
      obtain ⟨b, hb, hle⟩ := ih hm'
      refine ⟨b, begun_concat_completed.2 hb, Int.le_trans hle (Int.le_of_lt ?_)⟩
      exact (of_handed hp).2.1 m' (run.knows.mark.trans hm')

/-- What is in flight or done at the highest, and what was begun last, has no gap before it. -/
structure Gapless (h : List Event) (l : Lane) : Prop where
  inFlight : ∀ x ∈ l.inFlight, Covered h x
  highestDone : ∀ x, l.highestDone = some x → Covered h x
  last : ∀ x, lastBegun h = some x → Covered h x

/-- A begin next to what was begun leaves no gap before it, nor before anything else. -/
theorem Gapless.begin_near {b : Int} (g : Gapless h l) (inTurn : InTurn (h ++ [.begun o])) (hb : .begun b ∈ h)
    (hle : b ≤ o + 1) : Gapless (h ++ [.begun o]) (l.begin o) := by
  obtain ⟨last, hlast⟩ := exists_lastBegun hb
  have turn : o = last + 1 ∨ o ≤ last := inTurn h o [] rfl last hlast
  have old : ∀ x, Covered h x → Covered (h ++ [.begun o]) x := by
    rintro x hx q ⟨c, hc, hcq⟩ hqx
    rw [begun_concat] at hc ⊢
    rcases hc with hc | rfl
    · exact .inl (hx q ⟨c, hc, hcq⟩ hqx)
    · by_cases hq : q = c
      · exact .inr hq
      · exact .inl (hx q ⟨b, hb, by omega⟩ hqx)
  have new : Covered (h ++ [.begun o]) o := by
    rintro q ⟨c, hc, hcq⟩ hqo
    rw [begun_concat] at hc ⊢
    by_cases hq : q = o
    · exact .inr hq
    · rcases hc with hc | rfl
      · exact .inl (g.last last hlast q ⟨c, hc, hcq⟩ (by omega))
      · omega
  constructor
  case inFlight =>
    intro x hx
    rw [inFlight_begin, mem_insertOffset] at hx
    rcases hx with rfl | hx
    · exact new
    · exact old x (g.inFlight x hx)
  case highestDone => exact fun x hx => old x (g.highestDone x (of_highestDone_begin hx))
  case last =>
    intro x hx
    rw [lastBegun_begun] at hx
    cases hx
    exact new

/-- A begin apart from all that was begun leaves no gap either, if nothing is pending. -/
theorem Run.gapless_begin_apart (run : Run h l) (apart : Apart h o) (none : ∀ q, ¬ Pending h q) :
    Gapless (h ++ [.begun o]) (l.begin o) := by
  have hflight : l.inFlight = [] := by
    rw [List.eq_nil_iff_forall_not_mem]
    exact fun q hq => none q ((run.knows.inFlight q).1 hq)
  have hbegin : l.begin o = ⟨[o], .none, some o⟩ := by
    cases hm : l.mark with
    | none => rw [begin_of_mark_eq_none hm, hflight, insertOffset]
    | some m =>
      obtain ⟨b, hb, hle⟩ := run.exists_le_standing (run.knows.mark.symm.trans hm)
      have := apart b hb
      rw [begin_of_lt_mark hm (by omega), hflight, insertOffset]
  have new : Covered (h ++ [.begun o]) o := by
    rintro q ⟨c, hc, hcq⟩ hqo
    rw [begun_concat] at hc ⊢
    rcases hc with hc | rfl
    · have := apart c hc
      omega
    · exact .inr (by omega)
  rw [hbegin]
  constructor
  case inFlight =>
    intro x hx
    cases List.mem_singleton.1 hx
    exact new
  case highestDone =>
    intro x hx
    cases hx
  case last =>
    intro x hx
    rw [lastBegun_begun] at hx
    cases hx
    exact new

theorem Run.gapless (run : Run h l) (inTurn : InTurn h) (calm : Calm h) : Gapless h l := by
  induction run with
  | start => exact ⟨by simp [empty], by simp [empty], by simp [lastBegun]⟩
  | @begin h l o run ih =>
    by_cases apart : Apart h o
    · exact run.gapless_begin_apart apart (calm h o [] rfl apart)
    · unfold Apart at apart
      simp only [Classical.not_forall, Int.not_lt] at apart
      obtain ⟨b, hb, hle⟩ := apart
      exact (ih inTurn.of_append calm.of_append).begin_near inTurn hb hle
  | @complete h l o run ih =>
    have g := ih inTurn.of_append calm.of_append
    constructor
    case inFlight =>
      intro x hx
      rw [inFlight_complete] at hx
      exact covered_completed.2 (g.inFlight x (List.mem_of_mem_erase hx))
    case highestDone =>
      intro x hx
      rw [covered_completed]
      rcases of_highestDone_complete hx with ⟨rfl, present⟩ | hx
      · exact g.inFlight x present
      · exact g.highestDone x hx
    case last =>
      intro x hx
      rw [lastBegun_completed] at hx
      exact covered_completed.2 (g.last x hx)

/-- Where no gap is left, all below a position handed out was handled. -/
theorem Run.handled_of_handed (run : Run h l) (inTurn : InTurn h) (calm : Calm h)
    (hp : (l.complete o).2 = .handed (some p)) (hq : q < p) (hlow : ∃ b, .begun b ∈ h ∧ b ≤ q) :
    Handled (h ++ [.completed o (.handed (some p))]) q := by
  have g := run.gapless inTurn calm
  obtain ⟨present, -, position⟩ := of_handed hp
  have hbegun : .begun q ∈ h := by
    cases he : l.inFlight.erase o with
    | nil =>
      rw [he, position?_nil] at position
      have hqtop : q ≤ l.top o := by omega
      rcases l.top_attained o with ht | hd
      · rw [ht] at hqtop
        exact g.inFlight o present q hlow hqtop
      · exact g.highestDone (l.top o) hd q hlow hqtop
    | cons x xs =>
      rw [he, position?_cons, Option.some.injEq] at position
      have hx : x ∈ l.inFlight.erase o := he ▸ List.mem_cons_self ..
      exact g.inFlight x (List.mem_of_mem_erase hx) q hlow (by omega)
  exact ((run.sound hp).settled q hq hbegun).handled

/-- Where delivery starts again apart from all that was begun, while messages from before are pending, the first
message done hands out the lowest of those. -/
theorem Run.overtakes (run : Run h l) (apart : Apart h o) (hq : Pending h q) :
    ∃ p, ((l.begin o).complete o).2 = .handed (some p) ∧ Pending h p := by
  have k := run.knows
  have hlow : ∀ x ∈ l.inFlight, o < x := by
    intro x hx
    have := apart x ((k.inFlight x).1 hx).begun
    omega
  obtain ⟨m, hm⟩ := exists_standing_of_begun hq.begun
  obtain ⟨b, hb, hle⟩ := run.exists_le_standing hm
  have hlt : o < m := by
    have := apart b hb
    omega
  have hbegin : l.begin o = ⟨o :: l.inFlight, none, some o⟩ := by
    rw [begin_of_lt_mark (k.mark.trans hm) hlt, insertOffset_of_forall_lt hlow]
  obtain ⟨x, xs, hx⟩ := List.exists_cons_of_ne_nil (List.ne_nil_of_mem ((k.inFlight q).2 hq))
  have hmem : x ∈ l.inFlight := hx ▸ List.mem_cons_self ..
  have hposition : position? ((l.begin o).inFlight.erase o) ((l.begin o).top o) = some x := by
    rw [hbegin]
    dsimp only
    rw [List.erase_cons_head, hx, position?_cons]
  have hpresent : o ∈ (l.begin o).inFlight := by
    rw [hbegin]
    exact List.mem_cons_self ..
  have hmark : (l.begin o).mark = some o := by rw [hbegin]
  refine ⟨x, ?_, (k.inFlight x).1 hmem⟩
  rw [complete_of_mem hpresent hmark hposition (Int.le_of_lt (hlow x hmem)), if_pos (hlow x hmem)]

end Lane

namespace Tracker

open Lane (InTurn Calm Apart Pending Handled)

/-- Where messages of a partition come in turn, all below a position handed out was handled, from the lowest offset
begun on, if delivery starts again apart from all that was begun only while nothing is pending. Where it does so while
something is, the first message done hands out a position behind messages that were never begun. -/
theorem positions_after_restart (calls : List Call) (topic : String) (partition : Int)
    (inTurn : InTurn ((play calls).history topic partition)) :
    let t := (play calls).tracker
    let h := (play calls).history topic partition
    (Calm h → ∀ o p, (t.complete topic partition o).2 = .handed (some p) →
      ∀ q, q < p → (∃ b, .begun b ∈ h ∧ b ≤ q) → Handled (h ++ [.completed o (.handed (some p))]) q) ∧
      (∀ o, Apart h o → (∃ q, Pending h q) →
        InTurn (h ++ [.begun o]) ∧
          ∃ p, ((t.begin topic partition o).complete topic partition o).2 = .handed (some p) ∧ o + 1 < p ∧
            ¬ Handled (h ++ [.begun o] ++ [.completed o (.handed (some p))]) (o + 1)) := by
  intro t h
  have run : Lane.Run h (t.lane topic partition) := run_history calls topic partition
  refine ⟨fun calm o p hp q hq hlow => run.handled_of_handed inTurn calm hp hq hlow, ?_⟩
  rintro o apart ⟨q, hq⟩
  refine ⟨inTurn.begun fun last hlast => .inr ?_, ?_⟩
  · have := apart last (Lane.begun_of_lastBegun hlast)
    omega
  obtain ⟨p, hp, hpending⟩ := run.overtakes apart hq
  refine ⟨p, ?_, apart p hpending.begun, ?_⟩
  · show (((t.begin topic partition o).lane topic partition).complete o).2 = .handed (some p)
    unfold begin
    rw [lane_put_self]
    exact hp
  · rintro ⟨earlier, later, handed, hs, -⟩
    have hb : .begun (o + 1) ∈ h ++ [.begun o] ++ [.completed o (.handed (some p))] :=
      hs ▸ List.mem_append_right _ (List.mem_cons_self ..)
    rw [Lane.begun_concat_completed, Lane.begun_concat] at hb
    rcases hb with hb | hb
    · exact absurd (apart _ hb) (Int.lt_irrefl _)
    · omega

/-- Two messages, the second of them done, and then the first delivered again. -/
def deliveredAgain : List Call :=
  [.begin "order.created" 0 20, .begin "order.created" 0 21, .complete "order.created" 0 21,
    .begin "order.created" 0 20]

theorem positions_after_restart_of_two :
    let t := (play deliveredAgain).tracker
    let h := (play deliveredAgain).history "order.created" 0
    InTurn h ∧ Calm h ∧ (t.complete "order.created" 0 20).2 = .handed (some 22) ∧
      (∀ q, q < 22 → (∃ b, .begun b ∈ h ∧ b ≤ q) → Handled (h ++ [.completed 20 (.handed (some 22))]) q) ∧
      Apart h 15 ∧ Pending h 20 ∧
        ∃ p, ((t.begin "order.created" 0 15).complete "order.created" 0 15).2 = .handed (some p) ∧ 16 < p ∧
          ¬ Handled (h ++ [.begun 15] ++ [.completed 15 (.handed (some p))]) 16 := by
  intro t h
  have hh : h = [] ++ [.begun 20] ++ [.begun 21] ++ [.completed 21 (.handed none)] ++ [.begun 20] := by decide
  have inTurn : InTurn h := by
    rw [hh]
    refine .begun (.completed (.begun (.begun Lane.inTurn_nil ?_) ?_)) ?_
    · exact fun last hlast => absurd hlast (by simp [Lane.lastBegun])
    · exact fun last (hlast : some 20 = some last) => .inl (by cases hlast; rfl)
    · exact fun last (hlast : some 21 = some last) => .inr (by cases hlast; decide)
  have calm : Calm h := by
    rw [hh]
    refine .begun (.completed (.begun (.begun Lane.calm_nil ?_) ?_)) ?_
    · exact fun _ q => Lane.not_pending_nil
    · exact fun apart => absurd (apart 20 (by simp)) (by decide)
    · exact fun apart => absurd (apart 20 (by simp)) (by decide)
  have apart : Apart h 15 := by
    rw [hh]
    unfold Lane.Apart
    simp
  have pending : Pending h 20 := by
    rw [hh, Lane.pending_begun]
    exact .inl rfl
  obtain ⟨covers, overtaken⟩ := positions_after_restart deliveredAgain "order.created" 0 inTurn
  have handed : (t.complete "order.created" 0 20).2 = .handed (some 22) := by decide
  exact ⟨inTurn, calm, handed, covers calm 20 22 handed, apart, pending, (overtaken 15 apart ⟨20, pending⟩).2⟩

end Tracker

end Fulfilment
