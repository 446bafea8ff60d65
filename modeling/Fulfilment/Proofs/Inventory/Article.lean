import Fulfilment.Proofs.Inventory.Remote
import Fulfilment.Proofs.Url.Target

/-!
# Whose stock is counted

A record tells of which article at which hub it is. The depot finds records of the article that was asked for only. A
service may answer with a record of any other article, and if it is the only one in the answer, it is taken for the
one that was asked for (`remote_snapshot_ok_iff`): what is then set aside is counted against the stock of the other
article (`reserve_draws_from_article`).
-/

namespace Fulfilment

open Program (bind_eq)

theorem onlyRecord_eq_ok_iff {hubId skuId : String} {records : List Snapshot} {s : Snapshot} :
    onlyRecord hubId skuId records = .ok s ↔ records = [s] := by
  match records with
  | [] => exact ⟨nofun, nofun⟩
  | [_] => simp [onlyRecord]
  | _ :: _ :: _ => simp [onlyRecord]

/-- If the reply holds a single record, then it is one of the article at the hub. -/
def Http.Reply.AnswersFor (reply : Http.Reply) (hubId skuId : String) : Prop :=
  ∀ s, reply.Holds [s] → s.isOf hubId skuId = true

namespace Inventory

variable {σ : Type} {hubId skuId : String} {w : σ} {s : Snapshot}

/-- Whatever keeps the stock, the record is the only one that was found. -/
theorem snapshot_ok_iff (i : Inventory (StateM σ)) :
    (i.snapshot hubId skuId w).1 = .ok s ↔ (i.lookup hubId skuId w).1 = .ok [s] := by
  obtain ⟨found, w', hlookup⟩ : ∃ found w', i.lookup hubId skuId w = (found, w') := ⟨_, _, rfl⟩
  unfold snapshot
  rw [bind_eq hlookup, hlookup]
  cases found with
  | error e => exact ⟨nofun, nofun⟩
  | ok records =>
    constructor
    · intro h
      exact congrArg Except.ok (onlyRecord_eq_ok_iff.1 h)
    · intro h
      exact onlyRecord_eq_ok_iff.2 (Except.ok.inj h)

end Inventory

/-! ### In the depot -/

namespace Depot

variable {hubId skuId : String} {d : Depot} {s : Snapshot}

theorem of_mem_records (h : s ∈ d.records hubId skuId) :
    s ∈ d.stock ∧ s.isOf hubId skuId = true := List.mem_filter.1 h

theorem of_snapshot (h : (inventory.snapshot hubId skuId d).1 = .ok s) :
    d.records hubId skuId = [s] := by
  have hfound : (lookup hubId skuId d).1 = .ok [s] := (inventory.snapshot_ok_iff).1 h
  rcases lookup_spec hubId skuId d with ⟨-, d', hlookup, -⟩ | ⟨-, d', hlookup, -⟩
  · rw [hlookup] at hfound
    cases hfound
  · rw [hlookup] at hfound
    exact Except.ok.inj hfound

end Depot

/-- A figure is put only after the one record of the article at the hub was found, and it is what is left of that. -/
theorem Reserving.of_setOnHand {d : Depot} {tenantId hubId skuId : String} {quantity : Int64}
    {rule : AvailabilityRule} {r : Except InventoryError ReserveOutcome} {cs : List Call}
    (h : Reserving d tenantId hubId skuId quantity rule r cs) {u : StockUpdate} {ok : Bool}
    (hu : .setOnHand u ok ∈ cs) :
    ∃ s left, d.records hubId skuId = [s] ∧ s.after? rule quantity = some left ∧
      u = ⟨tenantId, hubId, skuId, left⟩ := by
  cases h with
  | notPut record enough =>
    obtain ⟨rfl, -⟩ : u = _ ∧ ok = _ := by simpa using hu
    exact ⟨_, _, record, enough, rfl⟩
  | put record enough =>
    obtain ⟨rfl, -⟩ : u = _ ∧ ok = _ := by simpa using hu
    exact ⟨_, _, record, enough, rfl⟩
  | _ => simp at hu

/-! ### At a service -/

namespace Inventory

open Http (Reply Wire)

section

variable {base : String} {url : Url} (stands : Http.address? (stockAddress base) = .ok url)
  (web : url.isHttp = true)
include stands web

/-- A service may tell of any article: the only record in its reply is taken. -/
theorem remote_snapshot_ok_iff (hubId skuId : String) (w : Wire) (s : Snapshot) :
    ((remote Wire.send base).snapshot hubId skuId w).1 = .ok s ↔
      (w.replyTo (lookupRequest url hubId skuId)).Holds [s] := by
  obtain ⟨found, hlookup, hfound⟩ := lookup_remote stands web hubId skuId w
  rw [snapshot_ok_iff, hlookup]
  rcases hfound with ⟨records, rfl, held⟩ | ⟨reason, rfl, none⟩
  · constructor
    · intro h
      rwa [← Except.ok.inj h]
    · intro held'
      rw [held.unique held']
  · exact ⟨nofun, fun held => absurd held (none [s])⟩

end

/-- What is put is left of stock of the article itself just when no record of another article allows the quantity. -/
theorem RemoteReserving.draws_iff {hubId skuId : String} {quantity : Int64} {rule : AvailabilityRule} {lookup : Reply}
    {answer : Int64 → Reply} {puts : List (Int64 × Reply)} {r : Except InventoryError ReserveOutcome}
    (h : RemoteReserving hubId skuId quantity rule lookup answer puts r) :
    (∀ p ∈ puts, ∃ s, lookup.Holds [s] ∧ s.isOf hubId skuId = true ∧ p.1.toInt = s.onHand.toInt - quantity.toInt) ↔
      ∀ s, lookup.Holds [s] → s.Allows rule quantity → s.isOf hubId skuId = true := by
  constructor
  · intro own s held allowed
    obtain ⟨p, hp⟩ := List.exists_mem_of_ne_nil _ (h.puts_iff.2 ⟨s, held, allowed⟩)
    obtain ⟨s', held', hof, -⟩ := own p hp
    cases held.unique held'
    exact hof
  · intro own p hp
    obtain ⟨s, held, allowed, hleft, -⟩ := h.of_mem_puts hp
    exact ⟨s, held, own s held allowed, hleft⟩

/-- In the depot the record of an article is always one of that article, and every figure put is what is left of its
stock. At a service the record is the only one in the reply, of whatever article it is; so it is one of the article
that was asked for just when the service answers for that, and a figure is put that is left of the stock of another
article just when the reply holds a single record of another article that allows the quantity. -/
theorem reserve_draws_from_article (tenantId hubId skuId : String) (quantity : Int64) (rule : AvailabilityRule) :
    (∀ d : Depot,
      (∀ s, (Depot.inventory.snapshot hubId skuId d).1 = .ok s → s ∈ d.stock ∧ s.isOf hubId skuId = true) ∧
        ∃ cs, (Depot.inventory.reserve tenantId hubId skuId quantity rule d).2.calls = d.calls ++ cs ∧
          ∀ u ok, .setOnHand u ok ∈ cs → ∃ s ∈ d.stock, s.isOf hubId skuId = true ∧
            u.quantity.toInt = s.onHand.toInt - quantity.toInt) ∧
      ∀ (base : String) (url : Url), Http.address? (stockAddress base) = .ok url → url.isHttp = true → ∀ w : Wire,
        let service := remote Wire.send base
        let lookup := lookupRequest url hubId skuId
        let reply := w.replyTo lookup
        lookup.Asks url hubId skuId ∧
          (∀ s, (service.snapshot hubId skuId w).1 = .ok s ↔ reply.Holds [s]) ∧
          ((∀ s, (service.snapshot hubId skuId w).1 = .ok s → s.isOf hubId skuId = true) ↔
            reply.AnswersFor hubId skuId) ∧
          ∃ puts : List (Int64 × Reply), (service.reserve tenantId hubId skuId quantity rule w).2.exchanges =
              w.exchanges ++ (lookup, reply) :: puts.map (putExchange url tenantId hubId skuId) ∧
            puts.length ≤ 1 ∧
            (∀ p, (putExchange url tenantId hubId skuId p).1.Puts url tenantId hubId skuId p.1) ∧
            (∀ p ∈ puts, ∃ s, (service.snapshot hubId skuId w).1 = .ok s ∧
              p.1.toInt = s.onHand.toInt - quantity.toInt) ∧
            ((∀ p ∈ puts, ∃ s, reply.Holds [s] ∧ s.isOf hubId skuId = true ∧
                p.1.toInt = s.onHand.toInt - quantity.toInt) ↔
              ∀ s, reply.Holds [s] → s.Allows rule quantity → s.isOf hubId skuId = true) := by
  constructor
  · intro d
    constructor
    · intro s h
      have record := Depot.of_snapshot h
      exact Depot.of_mem_records (record ▸ List.mem_singleton_self s)
    · obtain ⟨r, d', cs, hrun, hreserving, hbooked⟩ := reserve_spec hubId skuId d tenantId quantity rule
      rw [hrun]
      refine ⟨cs, hbooked.calls, fun u ok hu => ?_⟩
      obtain ⟨s, left, record, hleft, rfl⟩ := hreserving.of_setOnHand hu
      obtain ⟨stored, own⟩ := Depot.of_mem_records (record ▸ List.mem_singleton_self s)
      exact ⟨s, stored, own, (Snapshot.toInt_of_after? hleft).1⟩
  · intro base url stands web w service lookup reply
    have hsnapshot := remote_snapshot_ok_iff stands web hubId skuId w
    obtain ⟨r, puts, hrun, hreserving⟩ := remote_reserve_spec stands web tenantId hubId skuId quantity rule w
    refine ⟨lookupRequest_asks url hubId skuId, hsnapshot, ?_, puts, ?_, hreserving.length_puts_le,
      fun p => updateRequest_puts url tenantId hubId skuId p.1, ?_, hreserving.draws_iff⟩
    · constructor
      · intro own s held
        exact own s ((hsnapshot s).2 held)
      · intro own s h
        exact own s ((hsnapshot s).1 h)
    · rw [hrun]
    · intro p hp
      obtain ⟨s, held, -, hleft, -⟩ := hreserving.of_mem_puts hp
      exact ⟨s, (hsnapshot s).2 held, hleft⟩

/-- A service that tells of five pieces of the article `k2` whatever it is asked for, and accepts each put. -/
def fiveOfAnother : Wire where
  servers := fun _ r =>
    if r.method = "GET" then
      .answered 200 (Utf8.ofString "[\x7b\"hub_id\":\"h1\",\"sku_id\":\"k2\",\"quantity_on_hand\":5\x7d]")
    else .answered 200 []
  exchanges := []

/-- Where two pieces of `k1` are set aside, the record is that of `k2`, and the three that are left of it are put for
`k1`. -/
theorem reserve_draws_from_another :
    ∃ url, Http.address? (stockAddress "http://inventory.test") = .ok url ∧ url.isHttp = true ∧
      ∃ s left lookup reply put answer,
        ((remote Wire.send "http://inventory.test").snapshot "h1" "k1" fiveOfAnother).1 = .ok s ∧
        s.isOf "h1" "k1" = false ∧ left.toInt = 3 ∧ lookup.Asks url "h1" "k1" ∧ put.Puts url "t1" "h1" "k1" left ∧
        ((remote Wire.send "http://inventory.test").reserve "t1" "h1" "k1" 2 .onHand fiveOfAnother).2.exchanges =
          [(lookup, reply), (put, answer)] := by
  obtain ⟨url, stands, web⟩ := Http.exists_web_address (stockAddress "http://inventory.test") (by decide +kernel)
  have held : (fiveOfAnother.replyTo (lookupRequest url "h1" "k1")).Holds [⟨"h1", "k2", 5, 0, none⟩] :=
    ⟨_, ⟨200, rfl, by decide⟩, Program.eq_ok_of_toOption (by decide +kernel)⟩
  have enough : Snapshot.Allows ⟨"h1", "k2", 5, 0, none⟩ .onHand 2 := by
    unfold Snapshot.Allows
    decide
  obtain ⟨asks, hsnapshot, -, puts, hexchanges, single, tells, hleft, draws⟩ :=
    (reserve_draws_from_article "t1" "h1" "k1" 2 .onHand).2 _ url stands web fiveOfAnother
  have hput : puts ≠ [] := by
    rintro rfl
    have own := draws.1 (fun p hp => absurd hp List.not_mem_nil) _ held enough
    revert own
    decide
  obtain ⟨p, rfl⟩ : ∃ p, puts = [p] := by
    have hpos := List.length_pos_iff.2 hput
    exact List.length_eq_one_iff.1 (by omega)
  obtain ⟨s, hs, hfigure⟩ := hleft p (List.mem_singleton_self p)
  cases held.unique ((hsnapshot s).1 hs)
  exact ⟨url, stands, web, _, p.1, _, _, _, p.2, hs, by decide, hfigure, asks, tells p, hexchanges⟩

end Inventory

end Fulfilment
