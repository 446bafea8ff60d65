import Fulfilment.Proofs.Http.Form
import Fulfilment.Proofs.Http.Router
import Fulfilment.Proofs.Json.Record
import Fulfilment.Proofs.Text.Numeral
import Fulfilment.Proofs.Time.Newest
import Fulfilment.Webhook.Api

/-!
# Listing failures

Failures are kept in the order in which they were recorded, whatever their times (`Relay.mapM_record`). A listing
holds the latest of them, as many as the limit admits that a query asks for (`newestLogs_spec`), and a larger limit
only adds to it (`newestLogs_prefix`). Every limit can be asked for (`LogQuery.readQuery_asking`), and the answer of
the service holds the listing (`WebhookService.list_recorded`).
-/

namespace Fulfilment

open Http Json
open Program (bind_eq)

/-! ### What is recorded -/

namespace Relay

/-- A failure that can be recorded is kept behind the others. -/
theorem record_spec (letter : DeadLetter) (r : Relay) :
    ∃ result r', record letter r = (result, r') ∧ r'.failures = r.failures ++ result.toOption.toList ∧
      r'.listing = r.listing := by
  unfold record
  cases hs : r.records.strikes with
  | true => exact ⟨_, _, rfl, (List.append_nil _).symm, rfl⟩
  | false => exact ⟨_, _, rfl, rfl, rfl⟩

theorem mapM_record (letters : List DeadLetter) (r : Relay) :
    ∃ results r', letters.mapM record r = (results, r') ∧
      r'.failures = r.failures ++ results.filterMap Except.toOption ∧ r'.listing = r.listing := by
  induction letters generalizing r with
  | nil => exact ⟨[], r, rfl, (List.append_nil _).symm, rfl⟩
  | cons letter rest ih =>
    obtain ⟨result, r₁, run, failures, listing⟩ := record_spec letter r
    obtain ⟨results, r₂, run', failures', listing'⟩ := ih r₁
    refine ⟨result :: results, r₂, ?_, ?_, listing'.trans listing⟩
    · rw [List.mapM_cons, bind_eq run, bind_eq run']
      rfl
    · rw [failures', failures, List.append_assoc]
      cases result with
      | error f => rfl
      | ok kept => rfl

end Relay

/-! ### What is asked for -/

namespace LogQuery

/-- The query that asks for failures, with a limit or without one. -/
def asking (limit : Option Int64) : Option Bytes := limit.map fun n => Form.encode [("limit", toString n.toInt)]

theorem ofForm_int64 (n : Int64) : Codec.int64.ofForm (toString n.toInt) = .ok n := by
  have hlow : -2 ^ 63 ≤ n.toInt := Int64.le_toInt n
  have hhigh : n.toInt < 2 ^ 63 := Int64.toInt_lt n
  have hread : readInt min64 max64 (toString n.toInt).toList = .ok n.toInt := by
    rw [readInt_eq_ok_iff (by decide) (by decide)]
    refine ⟨Numeral.writes_toString n.toInt, ?_, ?_⟩
    · unfold min64
      omega
    · unfold max64
      omega
  change ((readInt min64 max64 (toString n.toInt).toList).mapError Mismatch.numeral).map Int64.ofInt = .ok n
  rw [hread]
  exact congrArg Except.ok (Int64.ofInt_toInt n)

theorem ofForm_limit {text : String} {n : Int64} (h : Codec.int64.ofForm text = .ok n) :
    (Record.ofForm [("limit", text)] : Except Mismatch LogQuery) = .ok ⟨some n⟩ := by
  let limit : Field := .optional "limit" .int64
  have names : ([limit].map (·.name)).Nodup := List.pairwise_singleton _ _
  have hread : (limit.codec.ofForm text).map (·, ()) = .ok (some n, ()) := by
    change ((Codec.int64.ofForm text).map some).map (·, ()) = .ok (some n, ())
    rw [h]
    rfl
  have hfill : Slots.fill "limit" (Mismatch.duplicate "limit") (fun f => (f.codec.ofForm text).map (·, ())) [limit]
      (Slots.known [] [limit] (some n, ())) = some (.ok (Slots.known ["limit"] [limit] (some n, ()), ())) :=
    (Slots.fill_known names (List.mem_singleton_self _) List.not_mem_nil _ _).1 () hread
  have hslots : slotsOfForm [limit] (Slots.empty [limit]) [("limit", text)] =
      .ok (Slots.known ["limit"] [limit] (some n, ())) := by
    rw [← Slots.known_nil [limit] (some n, ()), slotsOfForm, hfill]
    rfl
  change (slotsOfForm [limit] (Slots.empty [limit]) [("limit", text)] >>= fun slots =>
    (slots.toRow [limit]).map Record.ofRow) = (.ok ⟨some n⟩ : Except Mismatch LogQuery)
  rw [hslots]
  rfl

theorem readQuery_asking (limit : Option Int64) (method : String) (path : Bytes) (headers : List (String × Bytes))
    (body : Bytes) : readQuery LogQuery ⟨method, ⟨path, asking limit⟩, headers, body⟩ = .ok ⟨limit⟩ := by
  cases limit with
  | none => rfl
  | some n =>
    unfold readQuery asking
    rw [Option.map_some, Option.getD_some, Form.decode_encode, ofForm_limit (ofForm_int64 n)]
    rfl

end LogQuery

/-! ### Listings -/

section

variable {failures : List FailureRecord}

/-- The failures that are listed of these if a query asks for so many. -/
def newestLogs (failures : List FailureRecord) (limit : Option Int64) : List FailureRecord :=
  (newestFirst FailureRecord.recordedAt failures).take (LogQuery.count ⟨limit⟩).toNat

/-- What a query with that limit lists of these failures. -/
structure NewestLogs (failures : List FailureRecord) (limit : Option Int64) (logs : List FailureRecord) : Prop where
  /-- As many as there are, but not more than asked for. A hundred are asked for by default, and at least one and at
  most a thousand are listed. -/
  length : (logs.length : Int) = min (failures.length : Int) (max 1 (min ((limit.map Int64.toInt).getD 100) 1000))
  latest : ∃ omitted, Latest FailureRecord.recordedAt failures logs omitted
  /-- No failure is listed twice. -/
  nodup : (failures.map (·.id)).Nodup → (logs.map (·.id)).Nodup

theorem newestLogs_spec (failures : List FailureRecord) (limit : Option Int64) :
    NewestLogs failures limit (newestLogs failures limit) := by
  have first := latestFirst_newestFirst FailureRecord.recordedAt failures
  have latest := first.take (LogQuery.count ⟨limit⟩).toNat
  refine ⟨?_, ⟨_, latest⟩, fun distinct => ?_⟩
  · have hlength : (newestFirst FailureRecord.recordedAt failures).length = failures.length := first.perm.length_eq
    rw [newestLogs, List.length_take, hlength]
    simp only [LogQuery.count, LogQuery.defaultLimit, LogQuery.maxLimit]
    omega
  · have hall : ((newestFirst FailureRecord.recordedAt failures).map (·.id)).Nodup :=
      (first.perm.map _).nodup_iff.2 distinct
    exact hall.sublist ((List.take_sublist _ _).map _)

theorem newestLogs_prefix {l₁ l₂ : Option Int64} (h : (l₁.map Int64.toInt).getD 100 ≤ (l₂.map Int64.toInt).getD 100) :
    newestLogs failures l₁ <+: newestLogs failures l₂ := by
  apply List.take_prefix_take_left
  simp only [LogQuery.count, LogQuery.defaultLimit, LogQuery.maxLimit]
  omega

end

namespace WebhookService

variable {r : Relay} {q : Request}

/-- The answer that holds these failures. -/
def listed (logs : List FailureRecord) : Response :=
  .json 200 (printMembers [("logs", printList (logs.map Record.print))])

theorem getLogs_of_read {limit : Option Int64} (read : readQuery LogQuery q = .ok ⟨limit⟩)
    (working : r.listing.strikes = false) :
    getLogs q r = (listed (newestLogs r.failures limit), r.logged (.recent (LogQuery.count ⟨limit⟩) true)) := by
  have run : Relay.recent (LogQuery.count ⟨limit⟩) r =
      (.ok (newestLogs r.failures limit), r.logged (.recent (LogQuery.count ⟨limit⟩) true)) := by
    unfold Relay.recent
    rw [working]
    rfl
  unfold getLogs
  rw [read]
  dsimp only
  rw [bind_eq run]
  rfl

/-- A request for the failures is answered by the handler of its route. -/
theorem respond_getLogs {r' : Relay} {response : Response} (method : q.method = "GET")
    (path : q.target.path = Utf8.ofString "/webhook-logs") (run : getLogs q r = (response, r')) :
    respond q r = (Router.openToAll response, r') := by
  have route : Router.route? routes q = some ⟨"/webhook-logs", [("GET", getLogs)]⟩ := by
    unfold Router.route? routes
    exact List.find?_cons_of_pos (by simp [path])
  exact Router.respond_eq method (by decide) route rfl run

def firstOfOctober : Instant := ⟨⟨2024, 10, 1, by decide⟩, 0, 0, .refl true⟩

def secondOfOctober : Instant := ⟨⟨2024, 10, 2, by decide⟩, 0, 0, .refl true⟩

/-- Of the failures to come the second is recorded a day after the others. -/
def relayInOctober : Relay :=
  Relay.opened
    (fun n => (⟨List.replicate 32 (BitVec.ofNat 4 n).toFin, List.length_replicate⟩,
      if n = 2 then secondOfOctober else firstOfOctober))
    fun _ _ => .dropped

def threeLetters : List DeadLetter :=
  ["order.created", "order.updated", "order.cancelled"].map fun event =>
    ⟨⟨List.replicate 32 ⟨6, by decide⟩, List.length_replicate⟩, event, "http://a.test/x", "timed out",
      .object [("tenant_id", .text "t1")]⟩

end WebhookService

end Fulfilment
