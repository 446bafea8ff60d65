import Fulfilment.Bus.Rehearsal
import Fulfilment.Proofs.Bus.LowWater

/-!
# Consuming is a flow

What handling a message does to the tracker is the event that it is done, and the positions that it commits are those
of this event, whatever else is running (`Consumer.handle_finish`). So consuming a partition message after message is
a run of the flow that passes the same positions (`Consumer.consume_run`).
-/

namespace Fulfilment

namespace Consumer

variable {σ : Type}

private theorem bind_eq {ε τ α β : Type} {x : ExceptT ε (StateT τ (StateM σ)) α}
    {g : α → ExceptT ε (StateT τ (StateM σ)) β} {t t' : τ} {s s' : σ} {a : α} (h : x t s = ((.ok a, t'), s')) :
    (x >>= g) t s = g a t' s' := by
  show (ExceptT.bindCont g (x t s).1.1) (x t s).1.2 (x t s).2 = g a t' s'
  rw [h]
  rfl

/-- Commits positions one after the other, whether or not that succeeds. -/
def commitAll (commit : Committer (StateM σ)) (topic : String) (partition : Int) (positions : List Int) (s : σ) : σ :=
  positions.foldl (fun s q => (commit topic partition q s).2) s

/-- How handling a message ends. -/
def outcome : Lane.Answer → Except Panic Unit
  | .handed _ => .ok ()
  | .panicked panic => .error panic

theorem handle_eq (handler : Handler (StateM σ)) (commit : Committer (StateM σ)) (message : Message)
    (partition o : Int) (t : Tracker) (s : σ) :
    handle handler commit message partition o t s =
      ((outcome (t.complete message.topic partition o).2, (t.complete message.topic partition o).1),
        commitAll commit message.topic partition (t.complete message.topic partition o).2.handed?.toList
          (handler message s).2) := by
  let complete (t : Tracker) := t.complete message.topic partition o
  let s₁ := (handler message s).2
  have handled : (liftM (handler message) : ExceptT Panic (StateT Tracker (StateM σ)) _) t s =
      ((.ok (handler message s).1, t), s₁) := rfl
  have completed :
      (modifyGet fun t => ((complete t).2, (complete t).1) : ExceptT Panic (StateT Tracker (StateM σ)) _) t s₁ =
        ((.ok (complete t).2, (complete t).1), s₁) := rfl
  unfold handle
  rw [bind_eq handled, bind_eq completed]
  show _ = ((outcome (complete t).2, (complete t).1),
    commitAll commit message.topic partition (complete t).2.handed?.toList s₁)
  cases (complete t).2 with
  | handed position => cases position <;> rfl
  | panicked panic => rfl

variable {handler : Handler (StateM σ)} {commit : Committer (StateM σ)} {p : Flow.Plan} {f : Flow}
  {messages : List Message}

/-- Handling a message that is running is an event of the flow, if it ends well: the tracker is that of the event, and
the positions that the event passes are committed behind the handler. A panic is no event. -/
theorem handle_finish (handler : Handler (StateM σ)) (commit : Committer (StateM σ)) (f : Flow) {message : Message}
    (ht : message.topic = p.topic) {o : Nat} (ho : o ∈ f.running) (succeeded committed : Bool) (s : σ) :
    let r := handle handler commit message p.partition o f.tracker s
    (∀ f', Flow.step? p f (.finish o succeeded committed) = some f' →
      r = ((.ok (), f'.tracker),
        commitAll commit p.topic p.partition (f'.passed.drop f.passed.length) (handler message s).2)) ∧
      (Flow.step? p f (.finish o succeeded committed) = none → r.1.1 = .error .overflow) := by
  intro r
  have hr : r = ((outcome ((f.lane p).complete o).2, (f.finish p o succeeded committed).tracker),
      commitAll commit p.topic p.partition ((f.lane p).complete o).2.handed?.toList (handler message s).2) := by
    show handle handler commit message p.partition o f.tracker s = _
    rw [handle_eq, ht]
    rfl
  rw [hr]
  cases ha : ((f.lane p).complete o).2 with
  | handed position =>
    have hs : Flow.step? p f (.finish o succeeded committed) = some (f.finish p o succeeded committed) :=
      if_pos ⟨ho, fun panics => by cases ha.symm.trans panics⟩
    rw [hs]
    refine ⟨?_, fun hn => by cases hn⟩
    rintro f' ⟨⟩
    rw [Flow.passed_finish, List.drop_left, ha]
    rfl
  | panicked panic =>
    cases panic
    have hs : Flow.step? p f (.finish o succeeded committed) = none := if_neg fun h => h.2 ha
    rw [hs]
    exact ⟨fun f' hf => by (cases hf), fun _ => rfl⟩

/-- What is told of the positions that were committed: handling tells nothing, and each commit tells its position. -/
structure Tells (handler : Handler (StateM σ)) (commit : Committer (StateM σ)) (p : Flow.Plan) (told : σ → List Int) :
    Prop where
  handler : ∀ m s, told (handler m s).2 = told s
  commit : ∀ q s, told (commit p.topic p.partition q s).2 = told s ++ [q]

theorem Tells.commitAll {told : σ → List Int} (h : Tells handler commit p told) (positions : List Int) (s : σ) :
    told (commitAll commit p.topic p.partition positions s) = told s ++ positions := by
  induction positions generalizing s with
  | nil => exact (List.append_nil _).symm
  | cons q rest ih =>
    show told (Consumer.commitAll commit p.topic p.partition rest (commit p.topic p.partition q s).2) = _
    rw [ih, h.commit, List.append_assoc]
    rfl

/-- The two events by which a message is received and then handled, nothing else being running. -/
private theorem receive_finish (hk : f.Kept p) (hle : p.total ≤ max64) (hr : f.running = [])
    (hlt : f.received < p.total) :
    let f' := (f.receive p).finish p f.received true true
    f.received ∈ (f.receive p).running ∧ Flow.step? p f .receive = some (f.receive p) ∧
      Flow.step? p (f.receive p) (.finish f.received true true) = some f' ∧ f'.running = [] := by
  have room : f.running.length < max 1 p.concurrency := by
    rw [hr]
    exact Nat.lt_of_lt_of_le Nat.one_pos (Nat.le_max_left ..)
  have hmem : f.received ∈ (f.receive p).running := List.mem_append_right _ (List.mem_singleton_self _)
  refine ⟨hmem, if_pos ⟨hlt, room⟩, (hk.receive hlt room).step_finish hmem hle true true, ?_⟩
  show (f.running ++ [f.received]).erase f.received = []
  rw [hr]
  simp

/-- Consuming messages one after the other is a run of the flow, and commits the positions that the run passes. -/
theorem consume_run {told : σ → List Int} (h : Tells handler commit p told) (htotal : p.total ≤ max64)
    (ht : ∀ m ∈ messages, m.topic = p.topic) (hk : f.Kept p) (hr : f.running = [])
    (hle : f.received + messages.length ≤ p.total) (s : σ) (hs : told s = f.passed) :
    ∃ (events : List Flow.Event) (f' : Flow) (s' : σ), events.foldlM (Flow.step? p) f = some f' ∧
      f'.running = [] ∧ f'.received = f.received + messages.length ∧ told s' = f'.passed ∧
      consume handler commit p.partition messages f.received f.tracker s = ((.ok (), f'.tracker), s') := by
  induction messages generalizing f s with
  | nil => exact ⟨[], f, s, rfl, hr, rfl, hs, rfl⟩
  | cons m rest ih =>
    rw [List.forall_mem_cons] at ht
    rw [List.length_cons] at hle
    obtain ⟨hmem, hreceive, hfinish, hidle⟩ := receive_finish hk htotal hr (by omega)
    let f₁ := (f.receive p).finish p f.received true true
    let s₁ := commitAll commit p.topic p.partition (f₁.passed.drop f.passed.length) (handler m s).2
    have hk₁ : f₁.Kept p := (hk.step hreceive).step hfinish
    have hbegin : (modify (·.begin m.topic p.partition f.received) :
        ExceptT Panic (StateT Tracker (StateM σ)) Unit) f.tracker s = ((.ok (), (f.receive p).tracker), s) := by
      rw [ht.1]
      rfl
    have hhandle : handle handler commit m p.partition f.received (f.receive p).tracker s =
        ((.ok (), f₁.tracker), s₁) :=
      (handle_finish handler commit (f.receive p) ht.1 hmem true true s).1 f₁ hfinish
    have hs₁ : told s₁ = f₁.passed := by
      have hp : f₁.passed = f.passed ++ _ := Flow.passed_finish p (f.receive p) f.received true true
      rw [h.commitAll, h.handler, hs, hp, List.drop_left]
    have hle₁ : f₁.received + rest.length ≤ p.total := by
      show f.received + 1 + rest.length ≤ p.total
      omega
    obtain ⟨events, f', s', hev, hr', hlen, htold, hc⟩ := ih ht.2 hk₁ hidle hle₁ s₁ hs₁
    refine ⟨.receive :: .finish f.received true true :: events, f', s', ?_, hr', ?_, htold, ?_⟩
    · rw [List.foldlM_cons, hreceive, Option.bind_eq_bind, Option.bind_some, List.foldlM_cons, hfinish]
      exact hev
    · rw [hlen, List.length_cons]
      show f.received + 1 + rest.length = _
      omega
    · unfold consume
      rw [bind_eq hbegin, bind_eq hhandle]
      exact hc

/-- Consuming all messages of a partition commits positions that rise, and at last the one behind them all, however
the messages were handled and whether or not commits succeeded. -/
theorem consume_positions {told : σ → List Int} (h : Tells handler commit p told) (htotal : p.total ≤ max64)
    (ht : ∀ m ∈ messages, m.topic = p.topic) (hp : messages.length = p.total) (s : σ) (hs : told s = []) :
    ∃ t s', consume handler commit p.partition messages 0 .empty s = ((.ok (), t), s') ∧
      (told s').Pairwise (· < ·) ∧ (messages ≠ [] → (told s').getLast? = some (messages.length : Int)) := by
  have hle : Flow.start.received + messages.length ≤ p.total := by
    rw [hp]
    exact Nat.le_of_eq (Nat.zero_add _)
  have hstart := Flow.Kept.start p
  obtain ⟨events, f', s', hev, hr, hlen, htold, hc⟩ := consume_run h htotal ht hstart rfl hle s hs
  obtain ⟨hk, -⟩ := hstart.run hev
  have hlen : f'.received = messages.length := hlen.trans (Nat.zero_add _)
  refine ⟨f'.tracker, s', hc, ?_, ?_⟩
  · rw [htold]
    exact hk.rising
  · intro hne
    rw [htold, ← hlen]
    refine hk.getLast?_passed hr ?_
    rw [hlen]
    exact List.length_pos_iff.2 hne

/-- The position of a call that commits one. -/
def position? : Rehearsal.Call → Option Int
  | .handled _ => none
  | .committed _ _ next _ => some next

/-- A rehearsal tells the positions that it was called with. -/
theorem tells_rehearsal (p : Flow.Plan) :
    Tells Rehearsal.handler Rehearsal.commit p (fun stage => stage.calls.filterMap position?) where
  handler m s := by
    show (s.calls ++ [Rehearsal.Call.handled m]).filterMap position? = _
    rw [List.filterMap_append]
    exact List.append_nil _
  commit q s := by
    unfold Rehearsal.commit
    split <;> exact List.filterMap_append

end Consumer

end Fulfilment
