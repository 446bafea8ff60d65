import Fulfilment.Proofs.Bus.Retry
import Fulfilment.Proofs.Webhook.FanOut
import Fulfilment.Webhook.Api

/-!
# Attempts of the webhook service

A message of the webhook service is attempted again only after an attempt that has done nothing. An attempt at an
event fails just when its subscribers could not be looked up (`dispatcher_error_iff`), and one at a dead letter when
nothing was recorded (`failureSink_spec`), so that all attempts together deliver to each subscriber once at most, and
record a failure once at most (`retried_webhooks_once`).
-/

namespace Fulfilment

open Json
open Program (bind_eq)

/-! ### Events -/

section

variable {failedTopic : String} {m : Message} {r r' : Relay} {res : Except Failure Unit}

/-- What is no event is passed over; an event is dispatched. -/
theorem dispatcher_cases (failedTopic : String) (m : Message) (r : Relay) :
    (∃ error, LifecycleEvent.decode m.topic m.payload = .error error ∧ dispatcher failedTopic m r = (.ok (), r)) ∨
    (∃ e res vs r', LifecycleEvent.decode m.topic m.payload = .ok e ∧ dispatch failedTopic e r = (res, r') ∧
      Dispatching failedTopic e r res vs r' ∧ dispatcher failedTopic m r = (res.map fun _ => (), r')) := by
  unfold dispatcher
  cases hd : LifecycleEvent.decode m.topic m.payload with
  | error error => exact .inl ⟨error, rfl, rfl⟩
  | ok e =>
    obtain ⟨res, vs, r', hr, h⟩ := dispatch_spec failedTopic e r
    refine .inr ⟨e, res, vs, r', rfl, hr, h, ?_⟩
    dsimp only
    rw [bind_eq hr]
    cases res <;> rfl

/-- The subscribers of the event in a message could not be looked up. -/
def Message.Unanswered (m : Message) (r : Relay) : Prop :=
  ∃ e, LifecycleEvent.decode m.topic m.payload = .ok e ∧ blank e.tenantId = false ∧ r.lookups.strikes = true

theorem dispatcher_error_iff (run : dispatcher failedTopic m r = (res, r')) :
    (∃ f, res = .error f) ↔ m.Unanswered r := by
  unfold Message.Unanswered
  rcases dispatcher_cases failedTopic m r with ⟨error, hd, hr⟩ | ⟨e, res₀, vs, r₀, hd, -, h, hr⟩
  · rw [run] at hr
    cases hr
    simp [hd]
  · rw [run] at hr
    cases hr
    rw [hd]
    cases h with
    | unnamed tenant => simp [Except.map, tenant]
    | notFound tenant down => simp [Except.map, tenant, down]
    | visited tenant up => simp [Except.map, up]

/-- An attempt that fails leaves everything as it was, except that the lookup was tried. -/
theorem dispatcher_error_idle {f : Failure} (run : dispatcher failedTopic m r = (.error f, r')) :
    ∃ e : LifecycleEvent, r' = r.asked e none := by
  rcases dispatcher_cases failedTopic m r with ⟨error, -, hr⟩ | ⟨e, res, vs, r₀, -, -, h, hr⟩
  · rw [run] at hr
    cases hr
  · rw [run] at hr
    cases h with
    | notFound => exact ⟨e, (Prod.mk.inj hr).2⟩
    | unnamed | visited => cases hr

/-- What attempts at a message have come to: none was made to deliver, or one to each subscriber of its event, with
the request of that subscriber. -/
inductive Reached (m : Message) (r : Relay) : List Relay.Call → List Http.Outgoing → Prop
  | nobody {cs : List Relay.Call} (none : cs.filterMap Relay.Call.attempted? = []) : Reached m r cs []
  | everybody {cs : List Relay.Call} {e : LifecycleEvent}
      (decoded : LifecycleEvent.decode m.topic m.payload = .ok e)
      (each : cs.filterMap Relay.Call.attempted? = (r.subscribers e).map (·.id)) :
    Reached m r cs ((r.subscribers e).filterMap (·.request? e.name e.data))

theorem Reached.sublist {cs : List Relay.Call} {qs : List Http.Outgoing} (h : Reached m r cs qs) :
    (cs.filterMap Relay.Call.attempted?).Sublist (r.subscriptions.map (·.id)) := by
  cases h with
  | nobody none =>
    rw [none]
    exact List.nil_sublist _
  | everybody _ each =>
    rw [each]
    exact List.filter_sublist.map _

theorem dispatcher_reached (run : dispatcher failedTopic m r = (res, r')) :
    ∃ cs qs, r'.calls = r.calls ++ cs ∧ r'.wire.requests = r.wire.requests ++ qs ∧ Reached m r cs qs := by
  have idle : ∀ {r'}, r' = r → ∃ cs qs, r'.calls = r.calls ++ cs ∧ r'.wire.requests = r.wire.requests ++ qs ∧
      Reached m r cs qs := by
    rintro _ rfl
    exact ⟨[], [], (List.append_nil _).symm, (List.append_nil _).symm, .nobody rfl⟩
  rcases dispatcher_cases failedTopic m r with ⟨error, -, hr⟩ | ⟨e, res, vs, r₀, hd, -, h, hr⟩
  · rw [run] at hr
    exact idle (Prod.mk.inj hr).2
  · rw [run] at hr
    obtain ⟨-, rfl⟩ := Prod.mk.inj hr
    cases h with
    | unnamed => exact idle rfl
    | notFound => exact ⟨_, [], rfl, (List.append_nil _).symm, .nobody rfl⟩
    | visited _ _ visits all =>
      have hids : (r.subscribers e).map (·.id) = vs.map (·.subscription.id) := by
        rw [← all, List.map_map]
        rfl
      refine ⟨.activeFor e.tenantId e.name (some ((r.subscribers e).map (·.id))) :: vs.flatMap (·.calls), _, ?_,
        visits.sent.requests, ?_⟩
      · rw [visits.sent.calls]
        simp [Relay.asked, Relay.logged]
      · rw [all]
        exact .everybody hd (by rw [hids]; exact visits.filterMap_attempted?)

/-- What was attempted at an event: attempts in a row, of which those that failed have sent and published nothing. -/
structure Distributed (failedTopic : String) (m : Message) (r : Relay) (as : List (Handler.Attempt Relay))
    (r' : Relay) : Prop where
  attempted : Handler.Attempted (dispatcher failedTopic) m r as r'
  fails : ∀ a ∈ as, (∃ f, a.result = .error f) ↔ m.Unanswered a.before
  idle : ∀ a ∈ as, ∀ f, a.result = .error f →
    a.after.wire = a.before.wire ∧ a.after.bus = a.before.bus ∧
      ∃ tenantId event, a.after.calls = a.before.calls ++ [.activeFor tenantId event none]
  reached : ∃ cs qs, r'.calls = r.calls ++ cs ∧ r'.wire.requests = r.wire.requests ++ qs ∧ Reached m r cs qs ∧
    (cs.filterMap Relay.Call.attempted?).Sublist (r.subscriptions.map (·.id))

theorem distributed_of_attempted {as : List (Handler.Attempt Relay)}
    (h : Handler.Attempted (dispatcher failedTopic) m r as r') : Distributed failedTopic m r as r' := by
  induction h with
  | @last r r' res run =>
    refine ⟨.last run, ?_, ?_, ?_⟩
    · intro a ha
      rw [List.mem_singleton.1 ha]
      exact dispatcher_error_iff run
    · intro a ha f hf
      rw [List.mem_singleton.1 ha] at hf ⊢
      dsimp only at hf
      rw [hf] at run
      obtain ⟨e, rfl⟩ := dispatcher_error_idle run
      exact ⟨rfl, rfl, _, _, rfl⟩
    · obtain ⟨cs, qs, hcalls, hrequests, hreached⟩ := dispatcher_reached run
      exact ⟨cs, qs, hcalls, hrequests, hreached, hreached.sublist⟩
  | @again r r₁ r' f as failed later ih =>
    obtain ⟨e, rfl⟩ := dispatcher_error_idle failed
    obtain ⟨cs, qs, hcalls, hrequests, hreached, -⟩ := ih.reached
    refine ⟨.again failed later, ?_, ?_, ?_⟩
    · rw [List.forall_mem_cons]
      exact ⟨dispatcher_error_iff failed, ih.fails⟩
    · rw [List.forall_mem_cons]
      exact ⟨fun f _ => ⟨rfl, rfl, _, _, rfl⟩, ih.idle⟩
    · -- the attempts after this one find the subscriptions that it has found
      have hreached' : Reached m r (.activeFor e.tenantId e.name none :: cs) qs := by
        cases hreached with
        | nobody none => exact .nobody none
        | everybody decoded each => exact .everybody decoded each
      refine ⟨_, qs, ?_, hrequests, hreached', hreached'.sublist⟩
      rw [hcalls]
      simp [Relay.asked, Relay.logged]

end

/-! ### Dead letters -/

section

variable {m : Message} {r r' : Relay}

/-- All that handling a dead letter can come to: it cannot be read, it cannot be recorded, or one record is added. -/
theorem failureSink_spec (m : Message) (r : Relay) :
    (∃ fault f, (Record.parse m.payload : Except Fault DeadLetter) = .error fault ∧
      f = (Failure.ofMessage fault.message).context "malformed webhook failure record" ∧
      failureSink m r = (.error f, r)) ∨
    (∃ (letter : DeadLetter) (f : Failure) (r' : Relay), Record.parse m.payload = .ok letter ∧
      r.records.strikes = true ∧ failureSink m r = (.error f, r') ∧ r'.failures = r.failures) ∨
    (∃ (letter : DeadLetter) (id : Uuid) (time : Instant) (r' : Relay), Record.parse m.payload = .ok letter ∧
      r.records.strikes = false ∧ failureSink m r = (.ok (), r') ∧
      r'.failures = r.failures ++ [letter.recorded id time]) := by
  unfold failureSink
  cases hp : (Record.parse m.payload : Except Fault DeadLetter) with
  | error fault => exact .inl ⟨fault, _, rfl, rfl, rfl⟩
  | ok letter =>
    dsimp only
    cases hs : r.records.strikes with
    | true =>
      have hrecord : ∃ f r', Relay.record letter r = (.error f, r') ∧ r'.failures = r.failures := by
        unfold Relay.record
        rw [hs]
        exact ⟨_, _, rfl, rfl⟩
      obtain ⟨f, r', hr, hfailures⟩ := hrecord
      exact .inr (.inl ⟨letter, f, r', rfl, rfl, bind_eq hr, hfailures⟩)
    | false =>
      have hrecord : ∃ id time kept r', Relay.record letter r = (.ok kept, r') ∧
          r'.failures = r.failures ++ [letter.recorded id time] := by
        unfold Relay.record
        rw [hs]
        exact ⟨_, _, _, _, rfl, rfl⟩
      obtain ⟨id, time, kept, r', hr, hfailures⟩ := hrecord
      exact .inr (.inr ⟨letter, id, time, r', rfl, rfl, bind_eq hr, hfailures⟩)

theorem failureSink_error {f : Failure} (run : failureSink m r = (.error f, r')) : r'.failures = r.failures := by
  rcases failureSink_spec m r with ⟨_, _, -, -, hr⟩ | ⟨_, _, _, -, -, hr, h⟩ | ⟨_, _, _, _, -, -, hr, -⟩
  · rw [run] at hr
    cases hr
    rfl
  · rw [run] at hr
    cases hr
    exact h
  · rw [run] at hr
    cases hr

theorem failureSink_ok (run : failureSink m r = (.ok (), r')) : ∃ record, r'.failures = r.failures ++ [record] := by
  rcases failureSink_spec m r with ⟨_, _, -, -, hr⟩ | ⟨_, _, _, -, -, hr, -⟩ | ⟨_, _, _, _, -, -, hr, h⟩
  · rw [run] at hr
    cases hr
  · rw [run] at hr
    cases hr
  · rw [run] at hr
    cases hr
    exact ⟨_, h⟩

theorem failures_of_failed {n : Nat} (h : Handler.Failed failureSink m n r r') : r'.failures = r.failures := by
  induction h with
  | none => rfl
  | more first _ ih => rw [ih, failureSink_error first]

theorem failureSink_attempted_error {as : List (Handler.Attempt Relay)}
    (h : Handler.Attempted failureSink m r as r') :
    ∀ a ∈ as, ∀ f, a.result = .error f → a.after.failures = a.before.failures := by
  induction h with
  | last run =>
    intro a ha f hf
    rw [List.mem_singleton.1 ha] at hf ⊢
    dsimp only at hf
    rw [hf] at run
    exact failureSink_error run
  | again failed _ ih =>
    rw [List.forall_mem_cons]
    exact ⟨fun _ _ => failureSink_error failed, ih⟩

/-- What was attempted at a dead letter, and what it told at last: one record was added if that was a success, and
none if it was not. -/
structure Sunk (m : Message) (r : Relay) (as : List (Handler.Attempt Relay)) (res : Except Failure Unit)
    (r' : Relay) : Prop where
  attempted : Handler.Attempted failureSink m r as r'
  idle : ∀ a ∈ as, ∀ f, a.result = .error f → a.after.failures = a.before.failures
  recorded : res = .ok () → ∃ record, r'.failures = r.failures ++ [record]
  unrecorded : ∀ f, res = .error f → r'.failures = r.failures

theorem retried_failureSink_sunk (n : Nat) (m : Message) (r : Relay) :
    ∃ as, as.length ≤ max 1 n ∧
      Sunk m r as (Handler.retried n failureSink m r).1 (Handler.retried n failureSink m r).2 := by
  obtain ⟨k, r₁, hk, hf, he⟩ := Handler.retried_cases n failureSink m r
  have hfailures := failures_of_failed hf
  generalize Handler.retried n failureSink m r = told at he ⊢
  cases he with
  | succeeded last =>
    obtain ⟨as, has, hlength⟩ := hf.attempted last
    obtain ⟨record, hrecord⟩ := failureSink_ok last
    refine ⟨as, by omega, has, failureSink_attempted_error has, fun _ => ⟨record, ?_⟩, nofun⟩
    rw [hrecord, hfailures]
  | exhausted last =>
    obtain ⟨as, has, hlength⟩ := hf.attempted last
    refine ⟨as, by omega, has, failureSink_attempted_error has, nofun, fun _ _ => ?_⟩
    rw [failureSink_error last, hfailures]

end

/-- An event is attempted again only after its subscribers could not be looked up, before anything was sent, so that
all attempts together deliver once at most to each subscription. A dead letter is recorded once if it is handled in
the end, and not at all if it is not. -/
theorem retried_webhooks_once (s : WebhookSettings) (m : Message) (r : Relay) :
    (∃ as, as.length ≤ max 1 s.retryAttempts ∧
      Distributed s.failedTopic m r as (WebhookService.retriedDispatcher s m r).2) ∧
    ∃ as, as.length ≤ max 1 s.retryAttempts ∧
      Sunk m r as (WebhookService.retriedSink s m r).1 (WebhookService.retriedSink s m r).2 := by
  constructor
  · obtain ⟨as, has, hn⟩ := Handler.retried_attempted s.retryAttempts (dispatcher s.failedTopic) m r
    exact ⟨as, hn, distributed_of_attempted has⟩
  · exact retried_failureSink_sunk s.retryAttempts m r

end Fulfilment
