import Fulfilment.Proofs.Webhook.Visit

/-!
# Fanning out

An event with a tenant reaches each of its subscribers once, in the order of the store, however the deliveries and the
dead letters fare (`dispatch_fans_out`). What is attempted is a function of the subscriptions and of the event: two
relays with the same subscriptions make the same attempts, whatever the servers and the bus of each of them do.
-/

namespace Fulfilment

open Json

theorem Subscription.wants_eq (s : Subscription) (tenantId name : String) :
    s.wants tenantId name = decide (s.isActive = true ∧ s.tenantId = tenantId ∧ name ∈ s.events) := by
  have listed : s.events.any (· == name) = decide (name ∈ s.events) := by
    rw [List.any_beq', List.contains_eq_mem]
  unfold wants
  rw [listed, Bool.eq_iff_iff]
  simp [and_assoc]

namespace Relay.Call

/-- The subscription to which a call attempts a delivery. -/
def attempted? : Call → Option Uuid
  | .attempt id _ _ => some id
  | _ => none

/-- What a call offers to the bus: topic, key and payload. -/
def offered? : Call → Option (String × String × Bytes)
  | .publish topic key payload _ => some (topic, key, payload)
  | _ => none

end Relay.Call

/-- What a failed delivery offers to the bus. -/
def Visit.offer (failedTopic event : String) (data : Value) (v : Visit) : Option (String × String × Bytes) :=
  v.error.map fun e =>
    (failedTopic, v.subscription.id.render, (v.subscription.letter event data e).written)

section

variable {failedTopic event : String} {data : Value} {r r' : Relay} {v : Visit} {vs : List Visit}

theorem Visit.Made.filterMap_attempted? (h : v.Made failedTopic event data) :
    v.calls.filterMap Relay.Call.attempted? = [v.subscription.id] := by
  have fared := h.fared
  generalize v.error = error at fared
  generalize v.calls = cs at fared
  cases fared <;> rfl

theorem Visit.Made.filterMap_offered? (h : v.Made failedTopic event data) :
    v.calls.filterMap Relay.Call.offered? = (v.offer failedTopic event data).toList := by
  have fared := h.fared
  unfold Visit.offer
  generalize v.error = error at fared ⊢
  generalize v.calls = cs at fared ⊢
  cases fared <;> rfl

theorem Visits.filterMap_attempted? (h : Visits failedTopic event data r vs r') :
    (vs.flatMap (·.calls)).filterMap Relay.Call.attempted? = vs.map (·.subscription.id) := by
  induction h with
  | none => rfl
  | more made _ ih => rw [List.flatMap_cons, List.filterMap_append, made.filterMap_attempted?, ih]; rfl

theorem Visits.filterMap_offered? (h : Visits failedTopic event data r vs r') :
    (vs.flatMap (·.calls)).filterMap Relay.Call.offered? = vs.filterMap (·.offer failedTopic event data) := by
  induction h with
  | none => rfl
  | @more v vs r' made _ ih =>
    rw [List.flatMap_cons, List.filterMap_append, made.filterMap_offered?, ih, List.filterMap_cons]
    cases v.offer failedTopic event data <;> rfl

end

/-- An event has reached its subscribers: the visits that were made, what they come to, and the relay after them. -/
structure FannedOut (failedTopic : String) (e : LifecycleEvent) (r : Relay) (summary : DispatchSummary)
    (vs : List Visit) (r' : Relay) : Prop where
  /-- Every subscription that is active, of the tenant and for the event has one visit, and no other has any. -/
  visited : vs.map (·.subscription) =
    r.subscriptions.filter fun s => decide (s.isActive = true ∧ s.tenantId = e.tenantId ∧ e.name ∈ s.events)
  /-- Each visit starts from the relay that the one before it has left. -/
  visits : Visits failedTopic e.name e.data (r.asked e (some (vs.map (·.subscription.id)))) vs r'
  /-- Each visit is that of its subscription: an attempt, and right behind one that failed a dead letter. -/
  made : ∀ v ∈ vs, v.Made failedTopic e.name e.data
  calls : r'.calls =
    r.calls ++ .activeFor e.tenantId e.name (some (vs.map (·.subscription.id))) :: vs.flatMap (·.calls)
  /-- Nothing else is attempted or offered. -/
  attempts : (vs.flatMap (·.calls)).filterMap Relay.Call.attempted? = vs.map (·.subscription.id)
  offers : (vs.flatMap (·.calls)).filterMap Relay.Call.offered? = vs.filterMap (·.offer failedTopic e.name e.data)
  requests : r'.wire.requests =
    r.wire.requests ++ (vs.map (·.subscription)).filterMap (·.request? e.name e.data)
  matched : summary.matched = vs.length
  delivered : summary.delivered = vs.countP (·.error.isNone)
  failed : summary.failed = vs.countP (·.error.isSome)
  sum : summary.matched = summary.delivered + summary.failed

/-- Two series of visits, from the relay `r` to `r'` and from `s` to `s'`, attempt the same: they go to the same
subscriptions with the same requests, and where a delivery fares the same in both they offer the same dead letter. -/
structure AskedAlike (r : Relay) (vs : List Visit) (r' s : Relay) (ws : List Visit) (s' : Relay) : Prop where
  visited : ws.map (·.subscription) = vs.map (·.subscription)
  requests : ∃ qs, r'.wire.requests = r.wire.requests ++ qs ∧ s'.wire.requests = s.wire.requests ++ qs
  offers : ∀ (i : Nat) (v w : Visit), vs[i]? = some v → ws[i]? = some w → w.error = v.error →
    w.calls.filterMap Relay.Call.offered? = v.calls.filterMap Relay.Call.offered?

section

variable (failedTopic : String) {e : LifecycleEvent} {r : Relay}

private theorem dispatch_visits (tenant : blank e.tenantId = false) (up : r.lookups.strikes = false) :
    ∃ summary vs r', dispatch failedTopic e r = (.ok summary, r') ∧ FannedOut failedTopic e r summary vs r' := by
  obtain ⟨res, vs, r', hd, h⟩ := dispatch_spec failedTopic e r
  cases h with
  | unnamed tenant' =>
    rw [tenant] at tenant'
    cases tenant'
  | notFound _ down =>
    rw [up] at down
    cases down
  | visited _ _ visits all =>
    have hids : (r.subscribers e).map (·.id) = vs.map (·.subscription.id) := by
      rw [← all, List.map_map]
      rfl
    -- a visit is either without an error or with one
    have hcount := List.length_eq_countP_add_countP (l := vs) fun v => v.error.isNone
    have hfailed : vs.countP (fun v => decide ¬v.error.isNone = true) = vs.countP (·.error.isSome) :=
      List.countP_congr fun v _ => by cases v.error <;> simp
    rw [hfailed] at hcount
    refine ⟨_, vs, r', hd, ?_⟩
    unfold summaryOf
    constructor
    case visited =>
      rw [all]
      exact List.filter_congr fun s _ => s.wants_eq e.tenantId e.name
    case visits =>
      rw [← hids]
      exact visits
    case made => exact visits.made
    case calls =>
      rw [visits.sent.calls, ← hids]
      simp [Relay.asked, Relay.logged]
    case attempts => exact visits.filterMap_attempted?
    case offers => exact visits.filterMap_offered?
    case requests => exact visits.sent.requests
    case matched => rfl
    case delivered => rfl
    case failed =>
      dsimp only
      omega
    case sum =>
      dsimp only
      omega

private theorem FannedOut.askedAlike {s : Relay} {summary summary' : DispatchSummary} {vs ws : List Visit}
    {r' s' : Relay} (h : FannedOut failedTopic e r summary vs r') (h' : FannedOut failedTopic e s summary' ws s')
    (same : s.subscriptions = r.subscriptions) : AskedAlike r vs r' s ws s' := by
  have hvisited : ws.map (·.subscription) = vs.map (·.subscription) := by rw [h'.visited, h.visited, same]
  refine ⟨hvisited, ⟨_, h.requests, ?_⟩, ?_⟩
  · rw [h'.requests, hvisited]
  · intro i v w hv hw herror
    have hsub : w.subscription = v.subscription := by
      have hi := congrArg (·[i]?) hvisited
      simpa [hv, hw] using hi
    rw [(h.made v (List.mem_of_getElem? hv)).filterMap_offered?,
      (h'.made w (List.mem_of_getElem? hw)).filterMap_offered?]
    unfold Visit.offer
    rw [herror, hsub]

end

/-! ### A tenant with four subscriptions -/

/-- The identifier that repeats a digit. -/
def repeating (digit : BitVec 4) : Uuid := ⟨List.replicate 32 digit.toFin, by simp⟩

/-- A subscription of the tenant `t1` to cancellations. -/
def cancellations (digit : BitVec 4) (callbackUrl : String) (isActive : Bool) : Subscription where
  id := repeating digit
  tenantId := "t1"
  callbackUrl := callbackUrl
  events := ["order.cancelled"]
  headers := .null
  isActive := isActive

/-- Servers that answer the first request and break off those after it. -/
def answeringOnce : Http.Servers := fun before _ => if before.isEmpty then .answered 200 [] else .dropped

/-- Four subscriptions, one of them to no address and one that is not active, and a bus on which the first message is
lost. -/
def relayOfFour : Relay :=
  { Relay.opened (fun _ => (repeating 0, ⟨⟨2024, 6, 4, by decide⟩, 0, 0, .refl true⟩)) answeringOnce with
    subscriptions :=
      [cancellations 1 "no address" true, cancellations 2 "http://a.test/x" true,
        cancellations 3 "http://a.test/y" false, cancellations 4 "http://a.test/z" true]
    bus := { Bus.empty with outage := ⟨false, 1, []⟩ } }

def cancelled : LifecycleEvent := .other "order.cancelled" (.object [("tenant_id", .text "t1")])

end Fulfilment
