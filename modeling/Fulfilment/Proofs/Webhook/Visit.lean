import Fulfilment.Proofs.Json.RecordValue
import Fulfilment.Proofs.Program
import Fulfilment.Webhook.Dispatch

/-!
# Visits to subscribers

An event is taken to its subscribers one after the other. At each of them the delivery is attempted, and a dead letter
is offered to the bus when that fails: this is a *visit* (`serve_spec`). What is asked of a subscriber depends on its
subscription and on the event alone (`Subscription.request?`), and so does what its dead letter says, but for the
error (`Subscription.letter`). A visit changes nothing but the wire and the bus, so that the visits after it go on as
they would have gone. All that dispatching an event can come to is `Dispatching` (`dispatch_spec`).
-/

namespace Fulfilment

open Json
open Program (bind_eq)

/-- The request that a delivery makes, if there is an address of the web to make it to: the event is posted there by its
name and with its data. -/
def Subscription.request? (s : Subscription) (event : String) (data : Value) : Option Http.Outgoing :=
  match Http.address? s.callbackUrl with
  | .error _ => none
  | .ok url =>
    if url.isHttp then
      some ⟨"POST", url, s.allHeaders, (Value.object [("event", .text event), ("data", data)]).written⟩
    else none

theorem Subscription.delivery_eq (s : Subscription) (url : Url) (event : String) (data : Value) :
    s.delivery url event data =
      ⟨"POST", url, s.allHeaders, (Value.object [("event", .text event), ("data", data)]).written⟩ := by
  have text : (Value.text event).print = printText event := by rw [Value.print]
  rw [delivery, body, Value.written, Value.print, printEach_eq, List.map_cons, List.map_cons, List.map_nil, text]

/-- What a dead letter says: which subscription the delivery was for, of which event, to which address, and why it
failed, with the data of the event. -/
def Subscription.letter (s : Subscription) (event : String) (data : Value) (e : Http.ExchangeError) : Value :=
  .object [("subscription_id", .text s.id.render), ("event", .text event), ("callback_url", .text s.callbackUrl),
    ("error", .text e.message), ("payload", data)]

theorem Subscription.encode_deadLetter (s : Subscription) (event : String) (data : Value) (e : Http.ExchangeError) :
    Record.encode (s.deadLetter event data e) = (s.letter event data e).written := by
  refine Record.encode_eq_written_of ?_
  refine List.forall_mem_cons.2 ⟨FieldEntry.Lawful.writtenMember (Codec.uuid_lawful _), ?_⟩
  refine List.forall_mem_cons.2 ⟨FieldEntry.Lawful.writtenMember (Codec.text_lawful _), ?_⟩
  refine List.forall_mem_cons.2 ⟨FieldEntry.Lawful.writtenMember (Codec.text_lawful _), ?_⟩
  refine List.forall_mem_cons.2 ⟨FieldEntry.Lawful.writtenMember (Codec.text_lawful _), ?_⟩
  -- a free-form value is written as it is
  exact List.forall_mem_singleton.2 rfl

namespace Relay

/-- Since `r` the calls `cs` and the requests `qs` were made, and nothing has changed but the wire and the bus. -/
structure Sent (r : Relay) (cs : List Call) (qs : List Http.Outgoing) (r' : Relay) : Prop where
  only : r' = { r with wire := r'.wire, bus := r'.bus, calls := r.calls ++ cs }
  requests : r'.wire.requests = r.wire.requests ++ qs

namespace Sent

variable {r r₁ r₂ : Relay} {cs cs' : List Call} {qs qs' : List Http.Outgoing}

theorem refl (r : Relay) : Sent r [] [] r := by
  refine ⟨?_, (List.append_nil _).symm⟩
  rw [List.append_nil]

theorem trans (h : Sent r cs qs r₁) (h' : Sent r₁ cs' qs' r₂) : Sent r (cs ++ cs') (qs ++ qs') r₂ := by
  refine ⟨?_, ?_⟩
  · have only := h'.only
    rw [h.only] at only
    rw [← List.append_assoc]
    exact only
  · rw [h'.requests, h.requests, List.append_assoc]

theorem calls (h : Sent r cs qs r₁) : r₁.calls = r.calls ++ cs := by rw [h.only]

end Sent

/-- Posting makes the request of the subscription, if it has one, and no other. -/
theorem post_spec (s : Subscription) (event : String) (data : Value) (w : Http.Wire) :
    ∃ result w' sent, post s event data w = (result, w') ∧
      w'.requests = w.requests ++ (s.request? event data).toList ∧ w'.sent = w.sent ++ sent ∧
      sent.Sublist (s.request? event data).toList := by
  unfold post Subscription.request?
  cases Http.address? s.callbackUrl with
  | error e => exact ⟨_, w, [], rfl, (List.append_nil _).symm, (List.append_nil _).symm, .slnil⟩
  | ok url =>
    dsimp only
    unfold Http.exchange
    cases hweb : url.isHttp with
    | false =>
      rw [show (s.delivery url event data).url.isHttp = false from hweb]
      exact ⟨_, w, [], rfl, (List.append_nil _).symm, (List.append_nil _).symm, .slnil⟩
    | true =>
      rw [show (s.delivery url event data).url.isHttp = true from hweb, ← s.delivery_eq url event data]
      let request := s.delivery url event data
      let reply := w.servers w.requests request
      let w' : Http.Wire := { w with exchanges := w.exchanges ++ [(request, reply)] }
      have hrequests : w'.requests = w.requests ++ [request] := List.map_append
      have hsent : w'.sent = w.sent ++ if reply.reached then [request] else [] := by
        unfold Http.Wire.sent
        rw [List.filter_append, List.map_append]
        cases hr : reply.reached <;> simp [hr]
      refine ⟨_, w', _, rfl, hrequests, hsent, ?_⟩
      cases reply.reached with
      | false => exact List.nil_sublist _
      | true => exact List.Sublist.refl _

theorem attempt_spec (s : Subscription) (event : String) (data : Value) (r : Relay) :
    ∃ error sent r', attempt s event data r = (error, r') ∧ sent.Sublist (s.request? event data).toList ∧
      Sent r [.attempt s.id sent error] (s.request? event data).toList r' := by
  obtain ⟨result, w', sent, hp, hrequests, hsent, hsub⟩ := post_spec s event data r.wire
  have hdrop : w'.sent.drop r.wire.sent.length = sent := by rw [hsent, List.drop_left]
  have run : ∃ error, attempt s event data r = (error, { r with wire := w' }.logged (.attempt s.id sent error)) := by
    unfold attempt
    rw [StateT.run, hp]
    dsimp only
    rw [hdrop]
    exact ⟨_, rfl⟩
  obtain ⟨error, run⟩ := run
  exact ⟨error, sent, _, run, hsub, rfl, hrequests⟩

theorem publish_spec (topic key : String) (payload : Bytes) (r : Relay) :
    ∃ result r', publish topic key payload r = (result, r') ∧
      Sent r [.publish topic key payload result.isOk] [] r' :=
  ⟨_, _, rfl, rfl, (List.append_nil _).symm⟩

end Relay

/-! ### One subscriber -/

/-- What a visit tells, and the calls it makes: an attempt, and right after one that failed a dead letter. -/
inductive Visiting (failedTopic event : String) (data : Value) (s : Subscription) :
    Option Http.ExchangeError → List Relay.Call → Prop
  | delivered {sent : List Http.Outgoing} (asked : sent.Sublist (s.request? event data).toList) :
    Visiting failedTopic event data s none [.attempt s.id sent none]
  | failed {sent : List Http.Outgoing} {e : Http.ExchangeError} (told : Bool)
      (asked : sent.Sublist (s.request? event data).toList) :
    Visiting failedTopic event data s (some e)
      [.attempt s.id sent (some e),
        .publish failedTopic s.id.render (s.letter event data e).written told]

/-- What happened at a subscriber: the relay before, the error if the delivery failed, the calls that were made, and
the relay after them. -/
structure Visit where
  subscription : Subscription
  before : Relay
  error : Option Http.ExchangeError
  calls : List Relay.Call
  after : Relay

/-- The visit is that of its subscription. -/
structure Visit.Made (failedTopic event : String) (data : Value) (v : Visit) : Prop where
  outcome : (Relay.attempt v.subscription event data v.before).1 = v.error
  fared : Visiting failedTopic event data v.subscription v.error v.calls
  sent : Relay.Sent v.before v.calls (v.subscription.request? event data).toList v.after

theorem serve_spec (failedTopic event : String) (data : Value) (s : Subscription) (r : Relay) :
    ∃ v : Visit, v.subscription = s ∧ v.before = r ∧ v.Made failedTopic event data ∧
      serve failedTopic event data s r = (v.error.isNone, v.after) := by
  obtain ⟨error, sent, r₁, ha, asked, hsent⟩ := Relay.attempt_spec s event data r
  have outcome : (Relay.attempt s event data r).1 = error := by rw [ha]
  unfold serve
  simp only [Subscription.encode_deadLetter]
  rw [bind_eq ha]
  cases error with
  | none => exact ⟨⟨s, r, none, _, r₁⟩, rfl, rfl, ⟨outcome, .delivered asked, hsent⟩, rfl⟩
  | some e =>
    obtain ⟨result, r₂, hp, hsent'⟩ :=
      Relay.publish_spec failedTopic s.id.render (s.letter event data e).written r₁
    have both := hsent.trans hsent'
    rw [List.append_nil] at both
    exact ⟨⟨s, r, some e, _, r₂⟩, rfl, rfl, ⟨outcome, .failed result.isOk asked, both⟩, bind_eq hp⟩

/-! ### All subscribers -/

/-- Visits one after the other, each from the relay that the one before it has left. -/
inductive Visits (failedTopic event : String) (data : Value) : Relay → List Visit → Relay → Prop
  | none (r : Relay) : Visits failedTopic event data r [] r
  | more {v : Visit} {vs : List Visit} {r' : Relay} (made : v.Made failedTopic event data)
      (later : Visits failedTopic event data v.after vs r') : Visits failedTopic event data v.before (v :: vs) r'

theorem serveAll_spec (failedTopic event : String) (data : Value) (found : List Subscription) (r : Relay) :
    ∃ vs r', serveAll failedTopic event data found r = (vs.countP (·.error.isNone), r') ∧
      Visits failedTopic event data r vs r' ∧ vs.map (·.subscription) = found := by
  induction found generalizing r with
  | nil => exact ⟨[], r, rfl, .none r, rfl⟩
  | cons s rest ih =>
    obtain ⟨v, rfl, rfl, made, hs⟩ := serve_spec failedTopic event data s r
    obtain ⟨vs, r', hrest, hvs, hmap⟩ := ih v.after
    refine ⟨v :: vs, r', ?_, .more made hvs, by rw [List.map_cons, hmap]⟩
    unfold serveAll
    rw [bind_eq hs, bind_eq hrest, List.countP_cons, Nat.add_comm]
    rfl

namespace Visits

variable {failedTopic event : String} {data : Value} {r r' : Relay} {vs : List Visit}

theorem made (h : Visits failedTopic event data r vs r') : ∀ v ∈ vs, v.Made failedTopic event data := by
  induction h with
  | none =>
    intro v hv
    cases hv
  | more made _ ih =>
    rw [List.forall_mem_cons]
    exact ⟨made, ih⟩

/-- The calls and the requests of the visits are all that were made. -/
theorem sent (h : Visits failedTopic event data r vs r') :
    Relay.Sent r (vs.flatMap (·.calls)) ((vs.map (·.subscription)).filterMap (·.request? event data)) r' := by
  induction h with
  | none r => exact .refl r
  | @more v vs r' made _ ih =>
    have hcons : ((v :: vs).map (·.subscription)).filterMap (·.request? event data) =
        (v.subscription.request? event data).toList ++
          (vs.map (·.subscription)).filterMap (·.request? event data) := by
      cases hq : v.subscription.request? event data <;> simp [hq]
    rw [hcons]
    exact made.sent.trans ih

end Visits

/-! ### The whole event -/

/-- The subscribers of an event, in the order of the store. -/
def Relay.subscribers (r : Relay) (e : LifecycleEvent) : List Subscription :=
  r.subscriptions.filter (·.wants e.tenantId e.name)

/-- The relay when the subscribers of an event have been looked up, or could not be. -/
def Relay.asked (r : Relay) (e : LifecycleEvent) (found : Option (List Uuid)) : Relay :=
  { r with lookups := r.lookups.worn }.logged (.activeFor e.tenantId e.name found)

def summaryOf (vs : List Visit) : DispatchSummary :=
  ⟨vs.length, vs.countP (·.error.isNone), vs.length - vs.countP (·.error.isNone)⟩

/-- What dispatching an event tells, the visits that are made, and the relay after them. -/
inductive Dispatching (failedTopic : String) (e : LifecycleEvent) (r : Relay) :
    Except Failure DispatchSummary → List Visit → Relay → Prop
  | unnamed (tenant : blank e.tenantId = true) : Dispatching failedTopic e r (.ok .nothing) [] r
  | notFound {f : Failure} (tenant : blank e.tenantId = false) (down : r.lookups.strikes = true) :
    Dispatching failedTopic e r (.error f) [] (r.asked e none)
  | visited {vs : List Visit} {r' : Relay} (tenant : blank e.tenantId = false) (up : r.lookups.strikes = false)
      (visits : Visits failedTopic e.name e.data (r.asked e (some ((r.subscribers e).map (·.id)))) vs r')
      (all : vs.map (·.subscription) = r.subscribers e) :
    Dispatching failedTopic e r (.ok (summaryOf vs)) vs r'

theorem dispatch_spec (failedTopic : String) (e : LifecycleEvent) (r : Relay) :
    ∃ res vs r', dispatch failedTopic e r = (res, r') ∧ Dispatching failedTopic e r res vs r' := by
  unfold dispatch
  cases tenant : blank e.tenantId with
  | true => exact ⟨_, [], r, rfl, .unnamed tenant⟩
  | false =>
    rw [if_neg Bool.false_ne_true]
    cases hs : r.lookups.strikes with
    | true =>
      have down : Relay.activeFor e.tenantId e.name r =
          (.error (.ofMessage "subscription store unreachable"), r.asked e none) := by
        unfold Relay.activeFor
        rw [hs]
        rfl
      exact ⟨_, [], _, bind_eq down, .notFound tenant hs⟩
    | false =>
      have up : Relay.activeFor e.tenantId e.name r =
          (.ok (r.subscribers e), r.asked e (some ((r.subscribers e).map (·.id)))) := by
        unfold Relay.activeFor
        rw [hs]
        rfl
      obtain ⟨vs, r', hall, hvs, hmap⟩ := serveAll_spec failedTopic e.name e.data (r.subscribers e)
        (r.asked e (some ((r.subscribers e).map (·.id))))
      have hlength : (r.subscribers e).length = vs.length := by rw [← hmap, List.length_map]
      refine ⟨_, vs, r', ?_, .visited tenant hs hvs hmap⟩
      rw [bind_eq up]
      dsimp only
      rw [bind_eq hall, hlength]
      rfl

end Fulfilment
