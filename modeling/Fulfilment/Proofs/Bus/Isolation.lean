import Fulfilment.Proofs.Bus.History

/-!
# Partitions apart

A partition goes the same way among any other calls as in a run of only its own (`Tracker.Played.view_foldl_filter`),
and each of its calls is answered alike (`Tracker.history_own_calls`).
-/

namespace Fulfilment

namespace Tracker

variable {topic : String} {partition : Int}

namespace Call

/-- Whether the call is made on the partition. -/
def isOn (topic : String) (partition : Int) (c : Call) : Bool := c.target == (topic, partition)

/-- The call on the partition by which the event happens. -/
def ofEvent (topic : String) (partition : Int) : Lane.Event → Call
  | .begun o => .begin topic partition o
  | .completed o _ => .complete topic partition o

theorem isOn_iff {c : Call} : c.isOn topic partition = true ↔ c.target = (topic, partition) := beq_iff_eq

theorem ofEvent_serve {c : Call} (hc : c.target = (topic, partition)) (l : Lane) :
    ofEvent topic partition (c.serve l).2 = c := by
  cases c <;> cases hc <;> rfl

end Call

namespace Played

/-- Two runs that agree on a partition go on to agree on it, if the one makes only those calls of the other that are
on the partition. -/
theorem view_foldl_filter {s s' : Played} (h : s.view topic partition = s'.view topic partition) (calls : List Call) :
    (calls.foldl call s).view topic partition =
      ((calls.filter (Call.isOn topic partition)).foldl call s').view topic partition := by
  induction calls generalizing s s' with
  | nil => exact h
  | cons c rest ih =>
    rw [List.foldl_cons]
    by_cases hc : c.isOn topic partition = true
    · rw [List.filter_cons_of_pos hc, List.foldl_cons]
      rw [Call.isOn_iff] at hc
      refine ih ?_
      obtain ⟨hhistory, hlane⟩ := Prod.mk.inj h
      rw [call_self hc, call_self hc, hhistory, hlane]
    · rw [List.filter_cons_of_neg hc]
      rw [Call.isOn_iff] at hc
      exact ih ((call_ne hc).trans h)

/-- Calls on a partition add to its history what happens by each of them. -/
theorem history_foldl {calls : List Call} (own : ∀ c ∈ calls, c.target = (topic, partition)) (s : Played) :
    ((calls.foldl call s).history topic partition).map (Call.ofEvent topic partition) =
      (s.history topic partition).map (Call.ofEvent topic partition) ++ calls := by
  induction calls generalizing s with
  | nil => exact (List.append_nil _).symm
  | cons c rest ih =>
    obtain ⟨hc, hrest⟩ := List.forall_mem_cons.1 own
    have hself : (s.call c).history topic partition =
        s.history topic partition ++ [(c.serve (s.tracker.lane topic partition)).2] :=
      congrArg Prod.fst (call_self hc)
    rw [List.foldl_cons, ih hrest, hself, List.map_append, List.map_singleton, Call.ofEvent_serve hc,
      List.append_assoc, List.singleton_append]

end Played

/-- Whatever calls are made on a tracker, what is handed out on a partition, and its lane, are the same as in a run of
only the calls on it, on a fresh tracker. In that run each of them is answered, one after the other. -/
theorem history_own_calls (calls : List Call) (topic : String) (partition : Int) :
    let own := calls.filter (Call.isOn topic partition)
    (play calls).history topic partition = (play own).history topic partition ∧
      (play calls).tracker.lane topic partition = (play own).tracker.lane topic partition ∧
      ((play own).history topic partition).map (Call.ofEvent topic partition) = own := by
  intro own
  have hview : (play calls).view topic partition = (play own).view topic partition :=
    Played.view_foldl_filter rfl calls
  obtain ⟨hhistory, hlane⟩ := Prod.mk.inj hview
  refine ⟨hhistory, hlane, ?_⟩
  refine Played.history_foldl (fun c hc => ?_) ⟨.empty, []⟩
  exact Call.isOn_iff.1 (List.mem_filter.1 hc).2

end Tracker

end Fulfilment
