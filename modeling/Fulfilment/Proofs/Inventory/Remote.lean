import Fulfilment.Proofs.Depot.Stock
import Fulfilment.Proofs.Inventory.Requests
import Fulfilment.Proofs.Inventory.Reservation

/-!
# Reservations at a remote stock

A reservation at a stock that another service keeps is a lookup and at most one put, whatever the service replies
(`Inventory.remote_reserve_spec`). Each outcome is told of one kind of reply only, and a figure is put just when the
lookup was answered with a single record that allows the quantity (`Inventory.remote_reserve_answers`).
-/

namespace Fulfilment

open Http (Reply Wire)
open Program (bind_eq)

/-! ### Quantities that are allowed -/

namespace Snapshot

variable {s : Snapshot} {rule : AvailabilityRule} {quantity left : Int64}

/-- The rule counts the quantity as available, and what is left is a figure of a word of 64 bits that is not below
zero. -/
def Allows (s : Snapshot) (rule : AvailabilityRule) (quantity : Int64) : Prop :=
  quantity.toInt ≤ s.available rule ∧ 0 ≤ s.onHand.toInt - quantity.toInt ∧ s.onHand.toInt - quantity.toInt ≤ max64

theorem exists_after?_iff : (∃ left, s.after? rule quantity = some left) ↔ s.Allows rule quantity := by
  unfold after? Allows
  dsimp only
  split <;> simp_all

theorem after?_eq_none_iff : s.after? rule quantity = none ↔ ¬ s.Allows rule quantity := by
  rw [← exists_after?_iff]
  cases s.after? rule quantity <;> simp

/-- Of a quantity above zero the rule alone decides. -/
theorem allows_iff (h : 0 < quantity.toInt) : s.Allows rule quantity ↔ quantity.toInt ≤ s.available rule := by
  refine ⟨fun allowed => allowed.1, fun hq => ?_⟩
  have hle : s.available rule ≤ max s.onHand.toInt 0 := by
    cases rule <;> simp only [available] <;> omega
  have hmax : s.onHand.toInt ≤ 2 ^ 63 - 1 := s.onHand.toInt_le
  refine ⟨hq, ?_, ?_⟩
  · omega
  · unfold max64
    omega

end Snapshot

/-! ### Requests and replies -/

namespace Http

/-- The reply is an answer and no refusal, with that body, if all of it came. -/
def Reply.Accepts (reply : Reply) (body : Option Bytes) : Prop :=
  ∃ status, reply.answer? = some (status, body) ∧ ¬ (400 ≤ status ∧ status < 600)

theorem isRefusal_iff {status : Nat} : isRefusal status = true ↔ 400 ≤ status ∧ status < 600 := by
  unfold isRefusal isClientError isServerError
  simp only [Bool.or_eq_true, Bool.and_eq_true, decide_eq_true_eq]
  omega

theorem Reply.body?_eq_ok_iff {reply : Reply} {url : Url} {body : Option Bytes} :
    reply.body? url = .ok body ↔ reply.Accepts body := by
  unfold body? Accepts
  cases reply.answer? with
  | none => exact ⟨nofun, nofun⟩
  | some answer =>
    obtain ⟨status, body'⟩ := answer
    dsimp only
    by_cases hrefusal : isRefusal status = true
    · rw [if_pos hrefusal]
      refine ⟨nofun, ?_⟩
      rintro ⟨_, h, haccepted⟩
      cases h
      exact absurd (isRefusal_iff.1 hrefusal) haccepted
    · rw [if_neg hrefusal]
      constructor
      · intro h
        cases h
        exact ⟨status, rfl, fun h => hrefusal (isRefusal_iff.2 h)⟩
      · rintro ⟨_, h, -⟩
        cases h
        rfl

theorem Reply.Accepts.unique {reply : Reply} {body body' : Option Bytes} (h : reply.Accepts body)
    (h' : reply.Accepts body') : body = body' := by
  obtain ⟨status, hreply, -⟩ := h
  obtain ⟨status', hreply', -⟩ := h'
  cases hreply.symm.trans hreply'
  rfl

namespace Wire

/-- What becomes of the next request. -/
def replyTo (w : Wire) (r : Outgoing) : Reply := w.servers w.requests r

/-- After one more request. -/
def after (w : Wire) (r : Outgoing) : Wire := { w with exchanges := w.exchanges ++ [(r, w.replyTo r)] }

theorem exchange_send (w : Wire) {r : Outgoing} (web : r.url.isHttp = true) :
    exchange send r w = ((w.replyTo r).body? r.url, w.after r) := by
  unfold exchange
  rw [if_pos web]
  rfl

end Wire

end Http

namespace Inventory

open Http (Reply Wire)

/-- Slashes at the end of the address of a service do not count. -/
theorem stockAddress_slashes {root : String} (bare : root.toList.getLast? ≠ some '/') (n : Nat) :
    stockAddress (root ++ String.ofList (List.replicate n '/')) = root ++ "/inventory" := by
  have hslashes : ∀ c ∈ List.replicate n '/', (c == '/') = true := by
    intro c hc
    rw [List.eq_of_mem_replicate hc]
    rfl
  have hroot : root.toList.reverse.dropWhile (· == '/') = root.toList.reverse := by
    rw [← List.head?_reverse] at bare
    cases hreverse : root.toList.reverse with
    | nil => rfl
    | cons c cs =>
      rw [hreverse] at bare
      have hc : ¬ (c == '/') = true := by simpa using bare
      exact List.dropWhile_cons_of_neg hc
  unfold stockAddress
  rw [String.toList_append, String.toList_ofList, List.reverse_append, List.reverse_replicate,
    List.dropWhile_append_of_pos hslashes, hroot, List.reverse_reverse, String.ofList_toList]

end Inventory

/-- The reply to a lookup holds these records. -/
def Http.Reply.Holds (reply : Reply) (records : List Snapshot) : Prop :=
  ∃ body, reply.Accepts (some body) ∧ Inventory.readRecords (some body) = .ok records

theorem Http.Reply.Holds.unique {reply : Reply} {records records' : List Snapshot} (h : reply.Holds records)
    (h' : reply.Holds records') : records = records' := by
  obtain ⟨body, haccepts, hread⟩ := h
  obtain ⟨body', haccepts', hread'⟩ := h'
  cases haccepts.unique haccepts'
  exact Except.ok.inj (hread.symm.trans hread')

namespace Inventory

/-! ### Calls -/

theorem readRecords_cases (body : Option Bytes) :
    (∃ bytes records, body = some bytes ∧ readRecords body = .ok records) ∨
      ∃ reason, readRecords body = .error (.lookup reason) := by
  unfold readRecords
  cases body with
  | none => exact .inr ⟨_, rfl⟩
  | some bytes =>
    rw [Option.map_some]
    split
    · exact .inl ⟨bytes, _, rfl, rfl⟩
    · exact .inr ⟨_, rfl⟩
    · exact .inr ⟨_, rfl⟩

section

variable {base : String} {url : Url} (stands : Http.address? (stockAddress base) = .ok url)
  (web : url.isHttp = true)
include stands

theorem ask_spec {request : Url → Http.Outgoing} (addressed : (request url).url.isHttp = true) (w : Wire) :
    ask Wire.send base request w = ((w.replyTo (request url)).body? (request url).url, w.after (request url)) := by
  unfold ask
  rw [stands]
  exact Wire.exchange_send w addressed

include web

/-- A lookup is one request. The records are those in the reply, if it holds any list of them. -/
theorem lookup_remote (hubId skuId : String) (w : Wire) :
    ∃ found, (remote Wire.send base).lookup hubId skuId w = (found, w.after (lookupRequest url hubId skuId)) ∧
      ((∃ records, found = .ok records ∧ (w.replyTo (lookupRequest url hubId skuId)).Holds records) ∨
        ∃ reason, found = .error (.lookup reason) ∧
          ∀ records, ¬ (w.replyTo (lookupRequest url hubId skuId)).Holds records) := by
  have hask : ask Wire.send base (lookupRequest · hubId skuId) w = _ := ask_spec stands web w
  generalize w.replyTo (lookupRequest url hubId skuId) = reply at hask ⊢
  cases hbody : reply.body? (lookupRequest url hubId skuId).url with
  | error e =>
    rw [hbody] at hask
    refine ⟨_, bind_eq hask, .inr ⟨e.message, rfl, ?_⟩⟩
    rintro records ⟨body, haccepts, -⟩
    cases hbody.symm.trans (Reply.body?_eq_ok_iff.2 haccepts)
  | ok body =>
    rw [hbody] at hask
    have haccepts := Reply.body?_eq_ok_iff.1 hbody
    refine ⟨_, bind_eq hask, ?_⟩
    rcases readRecords_cases body with ⟨bytes, records, rfl, hread⟩ | ⟨reason, hread⟩
    · exact .inl ⟨records, hread, bytes, haccepts, hread⟩
    · refine .inr ⟨reason, hread, ?_⟩
      rintro records ⟨body', haccepts', hread'⟩
      cases haccepts.unique haccepts'
      cases hread.symm.trans hread'

/-- A put is one request. It has succeeded if the reply is no refusal. -/
theorem setOnHand_remote (u : StockUpdate) (w : Wire) :
    ∃ put, (remote Wire.send base).setOnHand u w = (put, w.after (updateRequest url u)) ∧
      ((put = .ok () ∧ ∃ body, (w.replyTo (updateRequest url u)).Accepts body) ∨
        ∃ reason, put = .error (.update reason) ∧ ∀ body, ¬ (w.replyTo (updateRequest url u)).Accepts body) := by
  have hask : ask Wire.send base (updateRequest · u) w = _ := ask_spec stands web w
  generalize w.replyTo (updateRequest url u) = reply at hask ⊢
  cases hbody : reply.body? (updateRequest url u).url with
  | error e =>
    rw [hbody] at hask
    refine ⟨_, bind_eq hask, .inr ⟨e.message, rfl, fun body haccepts => ?_⟩⟩
    cases hbody.symm.trans (Reply.body?_eq_ok_iff.2 haccepts)
  | ok body =>
    rw [hbody] at hask
    exact ⟨_, bind_eq hask, .inl ⟨rfl, body, Reply.body?_eq_ok_iff.1 hbody⟩⟩

end

/-! ### Reservations -/

/-- What a reservation comes to when its lookup is replied to by `lookup` and a put of a figure by `answer`: the puts
that it makes with the replies to them, and what it tells. -/
inductive RemoteReserving (hubId skuId : String) (quantity : Int64) (rule : AvailabilityRule) (lookup : Reply)
    (answer : Int64 → Reply) : List (Int64 × Reply) → Except InventoryError ReserveOutcome → Prop
  | unread {reason : String} (none : ∀ records, ¬ lookup.Holds records) :
    RemoteReserving hubId skuId quantity rule lookup answer [] (.error (.lookup reason))
  | notFound (held : lookup.Holds []) :
    RemoteReserving hubId skuId quantity rule lookup answer [] (.error (.notFound hubId skuId))
  | ambiguous {records : List Snapshot} (held : lookup.Holds records) (several : 2 ≤ records.length) :
    RemoteReserving hubId skuId quantity rule lookup answer [] (.error (.ambiguous hubId skuId records.length))
  | insufficient {s : Snapshot} (held : lookup.Holds [s]) (short : ¬ s.Allows rule quantity) :
    RemoteReserving hubId skuId quantity rule lookup answer [] (.ok (.insufficient (s.available rule)))
  | notPut {s : Snapshot} {left : Int64} {reason : String} (held : lookup.Holds [s]) (enough : s.Allows rule quantity)
      (exact : left.toInt = s.onHand.toInt - quantity.toInt) (refused : ∀ body, ¬ (answer left).Accepts body) :
    RemoteReserving hubId skuId quantity rule lookup answer [(left, answer left)] (.error (.update reason))
  | put {s : Snapshot} {left : Int64} {body : Option Bytes} (held : lookup.Holds [s])
      (enough : s.Allows rule quantity)
      (exact : left.toInt = s.onHand.toInt - quantity.toInt) (accepted : (answer left).Accepts body) :
    RemoteReserving hubId skuId quantity rule lookup answer [(left, answer left)] (.ok (.reserved s.onHand left))

/-- The put of a figure with the reply to it. -/
def putExchange (url : Url) (tenantId hubId skuId : String) (p : Int64 × Reply) : Http.Outgoing × Reply :=
  (updateRequest url ⟨tenantId, hubId, skuId, p.1⟩, p.2)

/-- A reservation from a stock that a service keeps is a lookup and the put of at most one figure. -/
theorem remote_reserve_spec {base : String} {url : Url} (stands : Http.address? (stockAddress base) = .ok url)
    (web : url.isHttp = true) (tenantId hubId skuId : String) (quantity : Int64) (rule : AvailabilityRule)
    (w : Wire) :
    ∃ r puts, (remote Wire.send base).reserve tenantId hubId skuId quantity rule w =
        (r, ⟨w.servers, w.exchanges ++ (lookupRequest url hubId skuId, w.replyTo (lookupRequest url hubId skuId)) ::
          puts.map (putExchange url tenantId hubId skuId)⟩) ∧
      RemoteReserving hubId skuId quantity rule (w.replyTo (lookupRequest url hubId skuId))
        (fun left => (w.after (lookupRequest url hubId skuId)).replyTo
          (updateRequest url ⟨tenantId, hubId, skuId, left⟩)) puts r := by
  obtain ⟨found, hlookup, hfound⟩ := lookup_remote stands web hubId skuId w
  have hsnapshot : (remote Wire.send base).snapshot hubId skuId w =
      (match found with | .error e => .error e | .ok records => onlyRecord hubId skuId records,
        w.after (lookupRequest url hubId skuId)) := by
    unfold snapshot
    rw [bind_eq hlookup]
    cases found <;> rfl
  unfold reserve
  rcases hfound with ⟨records, rfl, held⟩ | ⟨reason, rfl, none⟩
  · match records, held with
    | [], held => exact ⟨_, [], bind_eq hsnapshot, .notFound held⟩
    | s :: s' :: rest, held => exact ⟨_, [], bind_eq hsnapshot, .ambiguous held (by simp)⟩
    | [s], held =>
      dsimp only [onlyRecord] at hsnapshot
      rw [bind_eq hsnapshot]
      dsimp only
      cases hleft : s.after? rule quantity with
      | none => exact ⟨_, [], rfl, .insufficient held (Snapshot.after?_eq_none_iff.1 hleft)⟩
      | some left =>
        have enough := Snapshot.exists_after?_iff.1 ⟨left, hleft⟩
        have exact := (Snapshot.toInt_of_after? hleft).1
        obtain ⟨put, hput, hend⟩ := setOnHand_remote stands web ⟨tenantId, hubId, skuId, left⟩
          (w.after (lookupRequest url hubId skuId))
        have hafter :
            ((w.after (lookupRequest url hubId skuId)).after (updateRequest url ⟨tenantId, hubId, skuId, left⟩)) =
            ⟨w.servers, w.exchanges ++ (lookupRequest url hubId skuId, w.replyTo (lookupRequest url hubId skuId)) ::
              [putExchange url tenantId hubId skuId (left, (w.after (lookupRequest url hubId skuId)).replyTo
                (updateRequest url ⟨tenantId, hubId, skuId, left⟩))]⟩ := by
          simp [Wire.after, Wire.replyTo, putExchange]
        rw [hafter] at hput
        rcases hend with ⟨rfl, body, accepted⟩ | ⟨reason, rfl, refused⟩
        · exact ⟨_, [(left, _)], bind_eq hput, .put held enough exact accepted⟩
        · exact ⟨_, [(left, _)], bind_eq hput, .notPut held enough exact refused⟩
  · exact ⟨_, [], bind_eq hsnapshot, .unread none⟩

namespace RemoteReserving

variable {hubId skuId : String} {quantity : Int64} {rule : AvailabilityRule} {lookup : Reply} {answer : Int64 → Reply}
  {puts : List (Int64 × Reply)} {r : Except InventoryError ReserveOutcome}
  (h : RemoteReserving hubId skuId quantity rule lookup answer puts r)
include h

theorem length_puts_le : puts.length ≤ 1 := by
  cases h <;> simp

/-- Every figure that is put is what is left of a single record that allows the quantity. -/
theorem of_mem_puts {p : Int64 × Reply} (hp : p ∈ puts) : ∃ s, lookup.Holds [s] ∧ s.Allows rule quantity ∧
    p.1.toInt = s.onHand.toInt - quantity.toInt ∧ p.2 = answer p.1 := by
  cases h with
  | notPut held enough exact _ =>
    cases List.mem_singleton.1 hp
    exact ⟨_, held, enough, exact, rfl⟩
  | put held enough exact _ =>
    cases List.mem_singleton.1 hp
    exact ⟨_, held, enough, exact, rfl⟩
  | _ => exact absurd hp List.not_mem_nil

theorem puts_iff : puts ≠ [] ↔ ∃ s, lookup.Holds [s] ∧ s.Allows rule quantity := by
  constructor
  · intro hne
    obtain ⟨p, hp⟩ := List.exists_mem_of_ne_nil _ hne
    obtain ⟨s, held, enough, -, -⟩ := h.of_mem_puts hp
    exact ⟨s, held, enough⟩
  · rintro ⟨s, held, enough⟩
    cases h with
    | unread none => exact absurd held (none _)
    | notFound held' => cases held'.unique held
    | ambiguous held' several =>
      cases held'.unique held
      exact absurd several (by simp)
    | insufficient held' short =>
      cases held'.unique held
      exact absurd enough short
    | _ => exact List.cons_ne_nil _ _

theorem reserved_iff (before after : Int64) : r = .ok (.reserved before after) ↔
    ∃ s reply body, lookup.Holds [s] ∧ before = s.onHand ∧ (after, reply) ∈ puts ∧ reply.Accepts body := by
  cases h with
  | put held _ _ accepted =>
    constructor
    · intro hr
      cases hr
      exact ⟨_, _, _, held, rfl, List.mem_singleton.2 rfl, accepted⟩
    · rintro ⟨s, reply, body, held', rfl, hp, -⟩
      cases held.unique held'
      cases List.mem_singleton.1 hp
      rfl
  | notPut _ _ _ refused =>
    refine ⟨nofun, ?_⟩
    rintro ⟨_, reply, body, -, -, hp, accepted⟩
    cases List.mem_singleton.1 hp
    exact absurd accepted (refused _)
  | _ =>
    refine ⟨nofun, ?_⟩
    rintro ⟨_, _, _, -, -, hp, -⟩
    exact absurd hp List.not_mem_nil

theorem update_iff : (∃ reason, r = .error (.update reason)) ↔ ∃ p ∈ puts, ∀ body, ¬ p.2.Accepts body := by
  cases h with
  | put _ _ _ accepted =>
    refine ⟨nofun, ?_⟩
    rintro ⟨p, hp, refused⟩
    cases List.mem_singleton.1 hp
    exact absurd accepted (refused _)
  | notPut _ _ _ refused => exact ⟨fun _ => ⟨_, List.mem_singleton.2 rfl, refused⟩, fun _ => ⟨_, rfl⟩⟩
  | _ =>
    refine ⟨nofun, ?_⟩
    rintro ⟨p, hp, -⟩
    exact absurd hp List.not_mem_nil

theorem lookup_iff : (∃ reason, r = .error (.lookup reason)) ↔ ∀ records, ¬ lookup.Holds records := by
  cases h with
  | unread none => exact ⟨fun _ => none, fun _ => ⟨_, rfl⟩⟩
  | notFound held => exact ⟨nofun, fun none => absurd held (none _)⟩
  | ambiguous held _ => exact ⟨nofun, fun none => absurd held (none _)⟩
  | insufficient held _ => exact ⟨nofun, fun none => absurd held (none _)⟩
  | notPut held _ _ _ => exact ⟨nofun, fun none => absurd held (none _)⟩
  | put held _ _ _ => exact ⟨nofun, fun none => absurd held (none _)⟩

theorem notFound_iff : r = .error (.notFound hubId skuId) ↔ lookup.Holds [] := by
  cases h with
  | unread none => exact ⟨nofun, fun held => absurd held (none _)⟩
  | notFound held => exact ⟨fun _ => held, fun _ => rfl⟩
  | ambiguous held several =>
    refine ⟨nofun, fun held' => ?_⟩
    cases held.unique held'
    exact absurd several (by simp)
  | insufficient held _ => exact ⟨nofun, fun held' => nomatch held.unique held'⟩
  | notPut held _ _ _ => exact ⟨nofun, fun held' => nomatch held.unique held'⟩
  | put held _ _ _ => exact ⟨nofun, fun held' => nomatch held.unique held'⟩

theorem ambiguous_iff (count : Nat) : r = .error (.ambiguous hubId skuId count) ↔
    ∃ records, lookup.Holds records ∧ records.length = count ∧ 2 ≤ count := by
  cases h with
  | ambiguous held several =>
    constructor
    · intro hr
      cases hr
      exact ⟨_, held, rfl, several⟩
    · rintro ⟨records, held', rfl, -⟩
      cases held.unique held'
      rfl
  | unread none => exact ⟨nofun, fun ⟨_, held, _⟩ => absurd held (none _)⟩
  | notFound held =>
    refine ⟨nofun, ?_⟩
    rintro ⟨_, held', rfl, several⟩
    cases held.unique held'
    exact absurd several (by simp)
  | insufficient held _ | notPut held _ _ _ | put held _ _ _ =>
    refine ⟨nofun, ?_⟩
    rintro ⟨_, held', rfl, several⟩
    cases held.unique held'
    exact absurd several (by simp)

theorem insufficient_iff (available : Int) : r = .ok (.insufficient available) ↔
    ∃ s, lookup.Holds [s] ∧ ¬ s.Allows rule quantity ∧ available = s.available rule := by
  cases h with
  | insufficient held short =>
    constructor
    · intro hr
      cases hr
      exact ⟨_, held, short, rfl⟩
    · rintro ⟨s, held', -, rfl⟩
      cases held.unique held'
      rfl
  | unread none => exact ⟨nofun, fun ⟨_, held, _⟩ => absurd held (none _)⟩
  | notFound held => exact ⟨nofun, fun ⟨_, held', _⟩ => nomatch held.unique held'⟩
  | ambiguous held several =>
    refine ⟨nofun, ?_⟩
    rintro ⟨s, held', -⟩
    cases held.unique held'
    exact absurd several (by simp)
  | notPut held enough _ _ | put held enough _ _ =>
    refine ⟨nofun, ?_⟩
    rintro ⟨s, held', short, -⟩
    cases held.unique held'
    exact absurd enough short

end RemoteReserving

/-- A service that tells of five on hand at each lookup, and closes the connection at each put. -/
def fiveAndDropped : Wire where
  servers := fun _ r =>
    if r.method = "GET" then
      .answered 200 (Utf8.ofString "[\x7b\"hub_id\":\"h1\",\"sku_id\":\"k1\",\"quantity_on_hand\":5\x7d]")
    else .dropped
  exchanges := []

end Inventory

end Fulfilment
