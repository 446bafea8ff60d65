import Fulfilment.Proofs.Event.RoundTrip
import Fulfilment.Proofs.Webhook.Attempts

/-!
# Dead letters between dispatcher and sink

A dead letter carries the event that was not delivered one level deeper than the event came. The sink reads documents
of the depth of those that the dispatcher reads, so it takes in the dead letters of all events but those that are
nested as deep as a document may be: these are lost (`dead_letters_arrive`). Events of known names are never nested
that deep.
-/

namespace Fulfilment

open Json

/-- The record keeps a delivery that failed: to which subscription and address, of which event, why, and the data of
the event. -/
structure FailureRecord.Keeps (record : FailureRecord) (s : Subscription) (event : String) (data : Value)
    (e : Http.ExchangeError) : Prop where
  subscriptionId : record.subscriptionId = s.id
  event : record.event = event
  callbackUrl : record.callbackUrl = s.callbackUrl
  error : record.error = e.message
  payload : record.payload = data

/-- Where failures can be recorded, the message `n` is taken in: one record is added, and it keeps the delivery. -/
def Message.ArrivesAs (n : Message) (s : Subscription) (event : String) (data : Value) (e : Http.ExchangeError) :
    Prop :=
  ∀ sink : Relay, sink.records.strikes = false → ∃ record sink', failureSink n sink = (.ok (), sink') ∧
    sink'.failures = sink.failures ++ [record] ∧ record.Keeps s event data e

/-- The message `n` is refused for its depth, and nothing is recorded. -/
def Message.LostAsLetter (n : Message) : Prop :=
  ∃ fault : Fault, fault.isDeep ∧ ∀ sink : Relay, failureSink n sink =
    (.error ((Failure.ofMessage fault.message).context "malformed webhook failure record"), sink)

section

variable {n : Message} {s : Subscription} {event : String} {data : Value} {e : Http.ExchangeError}

theorem Message.arrivesAs (h : Record.parse n.payload = .ok (s.deadLetter event data e)) :
    n.ArrivesAs s event data e := by
  intro sink up
  rcases failureSink_spec n sink with
    ⟨fault, _, hp, -⟩ | ⟨_, _, _, -, down, -⟩ | ⟨letter, id, time, sink', hp, -, run, hf⟩
  · cases h.symm.trans hp
  · cases up.symm.trans down
  · cases h.symm.trans hp
    exact ⟨_, sink', run, hf, ⟨rfl, rfl, rfl, rfl, rfl⟩⟩

theorem Message.lostAsLetter {fault : Fault} (h : (Record.parse n.payload : Except Fault DeadLetter) = .error fault)
    (deep : fault.isDeep) : n.LostAsLetter := by
  refine ⟨fault, deep, fun sink => ?_⟩
  unfold failureSink
  rw [h]
  rfl

/-- A dead letter arrives if what it carries is not nested too deep for one. -/
theorem Message.letter_answered (hn : n.payload = (s.letter event data e).written) (kept : data.Kept) :
    (data.depth ≤ 126 → n.ArrivesAs s event data e) ∧ (126 < data.depth → n.LostAsLetter) := by
  have answered := DeadLetter.answered (d := s.deadLetter event data e) kept
  rw [s.encode_deadLetter, ← hn] at answered
  obtain ⟨hok, herror⟩ := answered
  constructor
  · exact fun shallow => arrivesAs (hok shallow)
  · intro deep
    obtain ⟨fault, hp, hfault⟩ := herror deep
    exact lostAsLetter hp hfault

end

/-- Whatever event the dispatcher decodes from a message, each failed delivery of it is followed by a dead letter. The
sink records it once, with the subscription, the topic, the address, the error and the event, unless the event is
nested more than 126 deep: then the sink refuses it. -/
theorem dead_letters_arrive (failedTopic : String) {m : Message} {e : LifecycleEvent}
    (decoded : LifecycleEvent.decode m.topic m.payload = .ok e) (whole : e.data.floatless = true) (r : Relay) :
    (m.topic = Topic.orderCreated ∨ m.topic = Topic.orderUpdated → e.data.depth ≤ 1) ∧
    ∃ res vs r', dispatch failedTopic e r = (res, r') ∧ Dispatching failedTopic e r res vs r' ∧
      dispatcher failedTopic m r = (res.map fun _ => (), r') ∧
      ∀ v ∈ vs, ∀ error, v.error = some error → ∃ sent bytes told,
        v.calls = [.attempt v.subscription.id sent (some error),
          .publish failedTopic v.subscription.id.render bytes told] ∧
        ∀ n : Message, n.payload = bytes →
          (e.data.depth ≤ 126 → n.ArrivesAs v.subscription m.topic e.data error) ∧
          (126 < e.data.depth → n.LostAsLetter) := by
  refine ⟨LifecycleEvent.depth_data_le decoded, ?_⟩
  have hname : e.name = m.topic := by
    obtain ⟨-, -, hname, -⟩ := LifecycleEvent.of_decode decoded
    exact hname
  have kept := LifecycleEvent.kept_data decoded whole
  rcases dispatcher_cases failedTopic m r with ⟨error, hd, -⟩ | ⟨e', res, vs, r', hd, hdispatch, h, hr⟩
  · cases decoded.symm.trans hd
  · cases decoded.symm.trans hd
    refine ⟨res, vs, r', hdispatch, h, hr, fun v hv error hfailed => ?_⟩
    -- there are visits only where subscribers were looked up and found
    have fared : Visiting failedTopic e.name e.data v.subscription v.error v.calls := by
      cases h with
      | unnamed => exact absurd hv List.not_mem_nil
      | notFound => exact absurd hv List.not_mem_nil
      | visited _ _ visits _ => exact (visits.made v hv).fared
    rw [hfailed, hname] at fared
    generalize v.calls = calls at fared ⊢
    cases fared with
    | failed told asked => exact ⟨_, _, told, rfl, fun n hn => Message.letter_answered hn kept⟩

/-! ### An event as deep as a document may be -/

/-- An empty list within `n` lists. -/
def nestedLists : Nat → Value
  | 0 => .list []
  | n + 1 => .list [nestedLists n]

theorem kept_nestedLists (n : Nat) : (nestedLists n).Kept := by
  induction n with
  | zero => exact .list fun v hv => absurd hv List.not_mem_nil
  | succ n ih => exact .list (List.forall_mem_singleton.2 ih)

/-- The cancellation of an order with items that are nested `n + 1` deep. -/
def cancellation (n : Nat) : Value := .object [("items", nestedLists n), ("tenant_id", .text "t1")]

theorem kept_cancellation (n : Nat) : (cancellation n).Kept := by
  refine .object ?_ ?_
  · exact List.forall_mem_cons.2 ⟨kept_nestedLists n, List.forall_mem_singleton.2 (.text "t1")⟩
  · have hlt : "items" < "tenant_id" := by decide
    exact .cons (List.forall_mem_singleton.2 hlt) (List.pairwise_singleton _ _)

def cancellationMessage (n : Nat) : Message := ⟨"order.cancelled", none, (cancellation n).written⟩

theorem decode_cancellation {n : Nat} (h : (cancellation n).depth ≤ depthLimit) :
    LifecycleEvent.decode (cancellationMessage n).topic (cancellationMessage n).payload =
      .ok (.other "order.cancelled" (cancellation n)) := by
  unfold LifecycleEvent.decode
  rw [show (cancellationMessage n).payload = (cancellation n).written from rfl, (kept_cancellation n).parse_written h]
  rfl

/-- Where fewer deliveries succeed than there are, one fails. -/
theorem exists_failed {vs : List Visit} (h : vs.countP (·.error.isNone) < vs.length) :
    ∃ v ∈ vs, ∃ error, v.error = some error := by
  have hsome : ∃ v ∈ vs, ¬ v.error.isNone = true := by
    rw [← Classical.not_forall_not]
    intro hnone
    refine absurd (List.countP_eq_length.2 fun v hv => ?_) (Nat.ne_of_lt h)
    exact Classical.not_not.1 fun hne => hnone v ⟨hv, hne⟩
  obtain ⟨v, hv, hne⟩ := hsome
  cases herror : v.error with
  | none => simp [herror] at hne
  | some error => exact ⟨v, hv, error, herror⟩

/-- Of an event that is nested 127 deep, two of three deliveries fail, and a dead letter of them is lost. -/
theorem dead_letters_arrive_but_deep :
    LifecycleEvent.decode (cancellationMessage 125).topic (cancellationMessage 125).payload =
        .ok (.other "order.cancelled" (cancellation 125)) ∧
      (LifecycleEvent.other "order.cancelled" (cancellation 125)).data.floatless = true ∧
      ∃ (vs : List Visit) (r' : Relay),
        dispatch Topic.webhookFailed (.other "order.cancelled" (cancellation 125)) relayOfFour = (.ok ⟨3, 1, 2⟩, r') ∧
        Dispatching Topic.webhookFailed (.other "order.cancelled" (cancellation 125)) relayOfFour
          (.ok ⟨3, 1, 2⟩) vs r' ∧
        ∃ v ∈ vs, ∃ bytes told, .publish Topic.webhookFailed v.subscription.id.render bytes told ∈ v.calls ∧
          ∀ n : Message, n.payload = bytes → n.LostAsLetter := by
  have hdepth : (cancellation 125).depth = 127 := by decide +kernel
  have decoded := decode_cancellation (n := 125) (Nat.le_of_eq hdepth)
  have whole : (LifecycleEvent.other "order.cancelled" (cancellation 125)).data.floatless = true := by decide +kernel
  have hsummary :
      (dispatch Topic.webhookFailed (.other "order.cancelled" (cancellation 125)) relayOfFour).1.toOption =
      some ⟨3, 1, 2⟩ := by decide +kernel
  obtain ⟨-, res, vs, r', hdispatch, h, -, hletters⟩ :=
    dead_letters_arrive Topic.webhookFailed decoded whole relayOfFour
  rw [hdispatch] at hsummary
  obtain rfl := Program.eq_ok_of_toOption hsummary
  have hcount : vs.countP (·.error.isNone) < vs.length := by
    generalize hparts : (⟨3, 1, 2⟩ : DispatchSummary) = summary at h
    cases h with
    | unnamed => cases hparts
    | visited =>
      unfold summaryOf at hparts
      injection hparts with hlength hdelivered
      omega
  obtain ⟨v, hv, error, herror⟩ := exists_failed hcount
  obtain ⟨sent, bytes, told, hcalls, hbytes⟩ := hletters v hv error herror
  refine ⟨decoded, whole, vs, r', hdispatch, h, v, hv, bytes, told, ?_, fun n hn => (hbytes n hn).2 ?_⟩
  · rw [hcalls]
    exact .tail _ (.head _)
  · exact Nat.lt_of_lt_of_eq (by decide) hdepth.symm

end Fulfilment
