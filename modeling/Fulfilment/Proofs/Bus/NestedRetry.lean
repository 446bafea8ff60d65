import Fulfilment.Bus.Rehearsal
import Fulfilment.Proofs.Bus.Retry

/-!
# Attempts in attempts

Retrying handlers in one another attempt a message as often as all their numbers multiplied allow. Each level that
gives up says so in front of what the level inside it has said (`Handler.retriedBy_tried`). A handler that follows a
script goes on with the next message where the script stopped, and there each message has all its attempts again
(`Rehearsal.mapM_retriedBy`).
-/

namespace Fulfilment

open Program (bind_eq)

namespace Handler

variable {σ : Type} {h H : Handler (StateM σ)} {m : Message} {a b most : Nat} {s s₁ s₂ : σ}
  {contexts : List String}

/-- How often retrying handlers in one another attempt a message at most. -/
def budget : (ns : List Nat) → Nat
  | [] => 1
  | n :: ns => max 1 n * budget ns

/-- What retrying handlers in one another say when they give up, the outermost first. -/
def givingUp (topic : String) (ns : List Nat) : List String :=
  (ns.map fun n => s!"giving up on {topic} message after {max 1 n} attempts").reverse

/-- A message is attempted `c` times, and at most `most` times: all attempts but the last fail, and if the last does
too, it was the last that could be made, and its failure is told behind the `contexts`. -/
inductive Tried (h : Handler (StateM σ)) (m : Message) (most : Nat) (contexts : List String) (s : σ) :
    (c : Nat) → Except Failure Unit × σ → Prop
  | succeeded {c : Nat} {s₁ s' : σ} (failed : Failed h m c s s₁) (few : c < most) (last : h m s₁ = (.ok (), s')) :
    Tried h m most contexts s (c + 1) (.ok (), s')
  | exhausted {c : Nat} {s₁ s' : σ} {f told : Failure} (failed : Failed h m c s s₁) (all : c + 1 = most)
      (last : h m s₁ = (.error f, s')) (chain : told.chain = contexts ++ f.chain) :
    Tried h m most contexts s (c + 1) (.error told, s')

theorem Failed.trans (hab : Failed h m a s s₁) (hbc : Failed h m b s₁ s₂) : Failed h m (a + b) s s₂ := by
  induction hab with
  | none => rwa [Nat.zero_add]
  | more first _ ih =>
    rw [Nat.succ_add]
    exact .more first (ih hbc)

theorem tried_once (h : Handler (StateM σ)) (m : Message) (s : σ) : Tried h m 1 [] s 1 (h m s) := by
  rcases hs : h m s with ⟨f | _, s'⟩
  · exact .exhausted (.none s) rfl hs rfl
  · exact .succeeded (.none s) (Nat.lt_succ_self 0) hs

/-- Where the handler inside gives up time after time, each time it has made all its attempts. -/
theorem Failed.of_tried (tried : ∀ s, ∃ c, Tried h m most contexts s c (H m s)) (failed : Failed H m a s s₁) :
    Failed h m (a * most) s s₁ := by
  induction failed with
  | none s =>
    rw [Nat.zero_mul]
    exact .none s
  | @more a s s₁ s₂ f first _ ih =>
    obtain ⟨c, hc⟩ := tried s
    rw [first] at hc
    cases hc with
    | exhausted before all last =>
      rw [Nat.succ_mul, Nat.add_comm, ← all]
      exact (before.trans (.more last (.none _))).trans (all ▸ ih)

/-- One level: the attempts multiply, and what is said at the end comes in front. -/
theorem retried_tried (tried : ∀ s, ∃ c, Tried h m most contexts s c (H m s)) (n : Nat) (s : σ) :
    ∃ c, Tried h m (max 1 n * most) (s!"giving up on {m.topic} message after {max 1 n} attempts" :: contexts) s c
      (retried n H m s) := by
  obtain ⟨k, s₁, hk, failed, ended⟩ := retried_cases n H m s
  have before := failed.of_tried tried
  have hmul : (k + 1) * most ≤ max 1 n * most := Nat.mul_le_mul_right most hk
  rw [Nat.succ_mul] at hmul
  obtain ⟨c, hc⟩ := tried s₁
  generalize retried n H m s = r at ended ⊢
  cases ended with
  | succeeded last =>
    rw [last] at hc
    cases hc with
    | succeeded failed' few last' => exact ⟨_, .succeeded (before.trans failed') (by omega) last'⟩
  | exhausted last all =>
    rw [last] at hc
    cases hc with
    | exhausted failed' all' last' chain =>
      refine ⟨_, .exhausted (before.trans failed') ?_ last' ?_⟩
      · have hn : max 1 n = k + 1 := by omega
        rw [hn, Nat.succ_mul, Nat.add_assoc, all']
      · rw [Failure.chain_context, chain, List.cons_append]

/-- More levels around those already there. -/
theorem retriedBy_of_tried (ns : List Nat) (tried : ∀ s, ∃ c, Tried h m most contexts s c (H m s)) (s : σ) :
    ∃ c, Tried h m (budget ns * most) (givingUp m.topic ns ++ contexts) s c (retriedBy ns H m s) := by
  induction ns generalizing H most contexts with
  | nil =>
    rw [budget, Nat.one_mul]
    exact tried s
  | cons n ns ih =>
    -- The first number makes the innermost of the levels to come.
    have := ih (retried_tried tried n)
    unfold givingUp at this ⊢
    rw [budget, List.map_cons, List.reverse_cons, List.append_assoc, List.singleton_append, Nat.mul_comm (max 1 n),
      Nat.mul_assoc]
    exact this

/-- A message through any number of levels, whatever the handler inside is and whatever becomes of its state. -/
theorem retriedBy_tried (ns : List Nat) (h : Handler (StateM σ)) (m : Message) (s : σ) :
    ∃ c, Tried h m (budget ns) (givingUp m.topic ns) s c (retriedBy ns h m s) := by
  have := retriedBy_of_tried ns (fun s => ⟨1, tried_once h m s⟩) s
  rwa [Nat.mul_one, List.append_nil] at this

end Handler

namespace Rehearsal

open Handler (Failed Tried budget givingUp retriedBy)

variable {m : Message} {s s₁ s₂ : Stage} {c most : Nat} {contexts : List String}

/-- How the handler fares in the call `k`. -/
def outcome (r : Rehearsal) (k : Nat) : Except Failure Unit := r.script.getD k (.ok ())

def skipped (r : Rehearsal) (k : Nat) : Rehearsal := { r with script := r.script.drop k }

/-- The stage after these messages were handled. -/
def Stage.played (s : Stage) (messages : List Message) : Stage :=
  ⟨s.plan.skipped messages.length, s.calls ++ messages.map .handled⟩

theorem outcome_skipped (r : Rehearsal) (k i : Nat) : (r.skipped k).outcome i = r.outcome (k + i) := by
  unfold outcome skipped
  rw [List.getD_eq_getElem?_getD, List.getD_eq_getElem?_getD, List.getElem?_drop]

theorem Stage.played_nil (s : Stage) : s.played [] = s := by
  unfold played skipped
  simp

theorem Stage.played_played (s : Stage) (ms ms' : List Message) :
    (s.played ms).played ms' = s.played (ms ++ ms') := by
  unfold played skipped
  simp [List.drop_drop]

theorem handler_eq (m : Message) (s : Stage) : handler m s = (s.plan.outcome 0, s.played [m]) := by
  unfold handler outcome Stage.played skipped
  rw [List.headD_eq_head?_getD, List.getD_eq_getElem?_getD, ← List.head?_eq_getElem?]
  simp

/-- Calls in a row that fail play as many outcomes of the script, all of them failures. -/
theorem played_of_failed (failed : Failed handler m c s s₁) :
    s₁ = s.played (List.replicate c m) ∧ ∀ i < c, ∃ f, s.plan.outcome i = .error f := by
  induction failed with
  | none s => exact ⟨s.played_nil.symm, fun i hi => absurd hi (Nat.not_lt_zero i)⟩
  | @more c s s₁ s₂ f first _ ih =>
    rw [handler_eq, Prod.mk.injEq] at first
    obtain ⟨hf, rfl⟩ := first
    obtain ⟨rfl, hfailed⟩ := ih
    refine ⟨by rw [Stage.played_played]; rfl, fun i hi => ?_⟩
    cases i with
    | zero => exact ⟨f, hf⟩
    | succ i =>
      obtain ⟨f', hf'⟩ := hfailed i (Nat.lt_of_succ_lt_succ hi)
      refine ⟨f', ?_⟩
      rw [← hf', Nat.add_comm i 1, ← outcome_skipped]
      rfl

/-- The call after those that fail. -/
theorem played_of_failed_last {result : Except Failure Unit} (failed : Failed handler m c s s₁)
    (last : handler m s₁ = (result, s₂)) :
    s₂ = s.played (List.replicate (c + 1) m) ∧ s.plan.outcome c = result ∧
      ∀ i < c, ∃ f, s.plan.outcome i = .error f := by
  obtain ⟨rfl, hfailed⟩ := played_of_failed failed
  rw [handler_eq, Prod.mk.injEq, Stage.played_played, ← List.replicate_succ'] at last
  obtain ⟨hlast, rfl⟩ := last
  refine ⟨rfl, ?_, hfailed⟩
  rw [← hlast]
  show _ = (s.plan.skipped (List.replicate c m).length).outcome 0
  rw [outcome_skipped, List.length_replicate, Nat.add_zero]

/-- How a message fares in the next `c` calls: no more are made than until the first success, and than `most`; the
result is a success just when one of them was; a failure is that of the last call, told behind the `contexts`. -/
structure Fares (r : Rehearsal) (most : Nat) (contexts : List String) (c : Nat) (result : Except Failure Unit) :
    Prop where
  made : 0 < c
  few : c ≤ most
  failed : ∀ i, i + 1 < c → r.outcome i ≠ .ok ()
  succeeded : result = .ok () ↔ ∃ i < c, r.outcome i = .ok ()
  gaveUp : ∀ told, result = .error told →
    c = most ∧ ∃ f, r.outcome (c - 1) = .error f ∧ told.chain = contexts ++ f.chain

theorem fares_of_tried {result : Except Failure Unit} (tried : Tried handler m most contexts s c (result, s₁)) :
    s₁ = s.played (List.replicate c m) ∧ Fares s.plan most contexts c result := by
  cases tried with
  | @succeeded c _ _ failed few last =>
    obtain ⟨rfl, hlast, hfailed⟩ := played_of_failed_last failed last
    refine ⟨rfl, Nat.succ_pos c, few, fun i hi hok => ?_, ?_, nofun⟩
    · obtain ⟨f, hf⟩ := hfailed i (Nat.lt_of_succ_lt_succ hi)
      cases hf.symm.trans hok
    · exact ⟨fun _ => ⟨c, Nat.lt_succ_self c, hlast⟩, fun _ => rfl⟩
  | @exhausted c _ _ f told failed all last chain =>
    obtain ⟨rfl, hlast, hfailed⟩ := played_of_failed_last failed last
    refine ⟨rfl, Nat.succ_pos c, Nat.le_of_eq all, fun i hi hok => ?_, ?_, ?_⟩
    · obtain ⟨f, hf⟩ := hfailed i (Nat.lt_of_succ_lt_succ hi)
      cases hf.symm.trans hok
    · refine ⟨nofun, ?_⟩
      rintro ⟨i, hi, hok⟩
      rcases Nat.lt_succ_iff_lt_or_eq.1 hi with hi | rfl
      · obtain ⟨f, hf⟩ := hfailed i hi
        cases hf.symm.trans hok
      · cases hlast.symm.trans hok
    · intro told' h
      cases h
      exact ⟨all, f, hlast, chain⟩

/-- How messages fare one after the other: their results, and the messages of all calls. Each has all its attempts,
and goes on where the script was left. -/
inductive Performed (ns : List Nat) :
    Rehearsal → List Message → List (Except Failure Unit) → List Message → Prop
  | nil (r : Rehearsal) : Performed ns r [] [] []
  | cons {r : Rehearsal} {m : Message} {ms : List Message} {c : Nat} {result : Except Failure Unit}
      {results : List (Except Failure Unit)} {calls : List Message}
      (first : Fares r (budget ns) (givingUp m.topic ns) c result)
      (rest : Performed ns (r.skipped c) ms results calls) :
    Performed ns r (m :: ms) (result :: results) (List.replicate c m ++ calls)

/-- Messages through any number of levels, whatever the script. -/
theorem mapM_retriedBy (ns : List Nat) (messages : List Message) (s : Stage) :
    ∃ results calls, (messages.mapM (retriedBy ns handler)).run s = (results, s.played calls) ∧
      Performed ns s.plan messages results calls := by
  induction messages generalizing s with
  | nil =>
    refine ⟨[], [], ?_, .nil _⟩
    rw [s.played_nil]
    rfl
  | cons m ms ih =>
    obtain ⟨c, tried⟩ := Handler.retriedBy_tried ns handler m s
    rcases hr : retriedBy ns handler m s with ⟨result, s₁⟩
    rw [hr] at tried
    obtain ⟨rfl, fares⟩ := fares_of_tried tried
    obtain ⟨results, calls, hrest, performed⟩ := ih (s.played (List.replicate c m))
    refine ⟨result :: results, List.replicate c m ++ calls, ?_, ?_⟩
    · rw [List.mapM_cons, ← Stage.played_played]
      exact (bind_eq hr).trans (bind_eq hrest)
    · refine .cons fares ?_
      have hc : (s.played (List.replicate c m)).plan = s.plan.skipped c := by
        unfold Stage.played
        rw [List.length_replicate]
      rwa [hc] at performed

/-- The level inside gives up on its second attempt, and the one around it, which makes one, does so too. -/
example :
    (retriedBy [2, 0] handler ⟨"orders", none, []⟩
      ⟨⟨[.error (.ofMessage "busy"), .error (.ofMessage "away")], 0⟩, []⟩).1 =
      .error ⟨"giving up on orders message after 1 attempts",
        ["giving up on orders message after 2 attempts", "away"]⟩ := by rfl

end Rehearsal

end Fulfilment
