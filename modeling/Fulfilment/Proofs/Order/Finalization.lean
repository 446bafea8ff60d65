import Fulfilment.Order.Finalizer
import Fulfilment.Proofs.Bus.Retry
import Fulfilment.Proofs.Inventory.Reservation

/-!
# How finalizing an order fares

All that one attempt to finalize an order can come to, with the calls it makes (`finalize_spec`).
-/

namespace Fulfilment

open Depot (Booked Drawn)
open Program (bind_eq)

/-- The calls by which stock is taken for an order, so that `left` stays on hand. -/
def OrderCreated.taking (e : OrderCreated) (left : Int64) : List Call :=
  [.lookup e.hubId e.skuId (some 1), .setOnHand ⟨e.tenantId, e.hubId, e.skuId, left⟩ true]

/-- The call that publishes the update of an order. -/
def OrderCreated.telling (e : OrderCreated) (topic : String) (now : Instant) (succeeded : Bool) : Call :=
  .publish topic e.orderId.render (Json.Record.encode (e.finalized now)) succeeded

/-- Whether the one record of an article at a hub allows the quantity of an order, and what it leaves. -/
structure OrderCreated.Covered (e : OrderCreated) (d : Depot) (s : Snapshot) (left : Int64) : Prop where
  record : d.records e.hubId e.skuId = [s]
  enough : s.after? .onHandLessReserved e.quantity.toInt64 = some left

/-- When stock was taken for an order and no figure was put behind that, the quantity is drawn. -/
theorem OrderCreated.Covered.drawn {e : OrderCreated} {d d' : Depot} {s : Snapshot} {left : Int64} {rest : List Call}
    (h : e.Covered d s left) (hb : Booked d (e.taking left ++ rest) d') (putless : Putless rest) :
    Drawn e.hubId e.skuId e.quantity.toInt d.stock d'.stock := by
  obtain ⟨hl, -, -⟩ := Snapshot.toInt_of_after? h.enough
  rw [Int32.toInt_toInt64] at hl
  rw [hb.stock_eq, List.foldl_append, Ledger.foldl_book_stock putless.not_writesStock]
  exact ⟨s, left, h.record, hl, rfl⟩

/-- When stock was taken for an order and the store told to move it, the order is moved if it was on hold. -/
theorem orders_of_moving {e : OrderCreated} {topic : String} {d d' : Depot} {left : Int64} {told : Bool}
    (hb : Booked d (e.taking left ++
      [.markNewOrder e.orderId (some (d.holds e.orderId)), e.telling topic d.supply.now told]) d') :
    d'.orders = (Depot.moveOrder e.orderId d.supply.now d.orders).getD d.orders := by
  rw [hb.orders_eq]
  cases hm : Depot.moveOrder e.orderId d.supply.now d.orders with
  | none =>
    have hh : d.holds e.orderId = false := by simp [Depot.holds, hm]
    rw [hh]
    rfl
  | some orders =>
    have hh : d.holds e.orderId = true := by simp [Depot.holds, hm]
    rw [hh, ← hm]
    rfl

/-- What an attempt tells, and the calls it makes. -/
inductive Finalizing (topic : String) (e : OrderCreated) (d : Depot) : Except Failure Finalization → List Call → Prop
  | unanswered {f : Failure} : Finalizing topic e d (.error f) [.lookup e.hubId e.skuId none]
  | noRecord (missing : (d.records e.hubId e.skuId).length ≠ 1) :
    Finalizing topic e d (.ok .noInventoryRecord)
      [.lookup e.hubId e.skuId (some (d.records e.hubId e.skuId).length)]
  | onHold {s : Snapshot} (record : d.records e.hubId e.skuId = [s])
      (short : s.after? .onHandLessReserved e.quantity.toInt64 = none) :
    Finalizing topic e d (.ok (.onHold (s.available .onHandLessReserved))) [.lookup e.hubId e.skuId (some 1)]
  | notPut {s : Snapshot} {left : Int64} {f : Failure} (covered : e.Covered d s left) :
    Finalizing topic e d (.error f)
      [.lookup e.hubId e.skuId (some 1), .setOnHand ⟨e.tenantId, e.hubId, e.skuId, left⟩ false]
  | notMoved {s : Snapshot} {left : Int64} {f : Failure} (covered : e.Covered d s left) :
    Finalizing topic e d (.error f) (e.taking left ++ [.markNewOrder e.orderId none])
  | notTold {s : Snapshot} {left : Int64} {f : Failure} (covered : e.Covered d s left) :
    Finalizing topic e d (.error f)
      (e.taking left ++ [.markNewOrder e.orderId (some (d.holds e.orderId)), e.telling topic d.supply.now false])
  | finalized {s : Snapshot} {left : Int64} (covered : e.Covered d s left) :
    Finalizing topic e d (.ok .finalized)
      (e.taking left ++ [.markNewOrder e.orderId (some (d.holds e.orderId)), e.telling topic d.supply.now true])

/-- A figure is put only where stock covers the order, and it is what is left then. -/
theorem Finalizing.covered {topic : String} {e : OrderCreated} {d : Depot} {r : Except Failure Finalization}
    {cs : List Call} (h : Finalizing topic e d r cs) {u : StockUpdate} {put : Bool} (hc : .setOnHand u put ∈ cs) :
    ∃ s left, e.Covered d s left ∧ u = ⟨e.tenantId, e.hubId, e.skuId, left⟩ := by
  -- no other figure is put
  have only {s : Snapshot} {left : Int64} {put' : Bool} (covered : e.Covered d s left)
      (hu : u = ⟨e.tenantId, e.hubId, e.skuId, left⟩ ∧ put = put') :
      ∃ s left, e.Covered d s left ∧ u = ⟨e.tenantId, e.hubId, e.skuId, left⟩ := ⟨s, left, covered, hu.1⟩
  cases h with
  | unanswered => simp at hc
  | noRecord => simp at hc
  | onHold => simp at hc
  | notPut covered => exact only covered (by simpa using hc)
  | notMoved covered => exact only covered (by simpa [OrderCreated.taking] using hc)
  | notTold covered => exact only covered (by simpa [OrderCreated.taking, OrderCreated.telling] using hc)
  | finalized covered => exact only covered (by simpa [OrderCreated.taking, OrderCreated.telling] using hc)

section

variable (topic : String) (e : OrderCreated) (d : Depot)

private theorem completeOrder_spec :
    ∃ r d' cs, completeOrder topic e d = (r, d') ∧ Booked d cs d' ∧
      ((∃ f, r = .error f ∧ cs = [.markNewOrder e.orderId none]) ∨
        (∃ f, r = .error f ∧
          cs = [.markNewOrder e.orderId (some (d.holds e.orderId)), e.telling topic d.supply.now false]) ∨
        (r = .ok .finalized ∧
          cs = [.markNewOrder e.orderId (some (d.holds e.orderId)), e.telling topic d.supply.now true])) := by
  unfold completeOrder
  rcases Depot.markNewOrder_spec e.orderId d with ⟨d₁, hm, hb⟩ | ⟨d₁, hm, hb⟩
  · exact ⟨_, d₁, _, bind_eq hm, hb, .inl ⟨_, rfl, rfl⟩⟩
  rw [bind_eq hm]
  dsimp only
  rw [bind_eq (show (get : Work Depot) d₁ = (d₁, d₁) from rfl), hb.supply]
  unfold Depot.publishRecord
  rcases Depot.publish_spec topic e.orderId.render (Json.Record.encode (e.finalized d.supply.now)) d₁ with
    ⟨f, d₂, hp, hb'⟩ | ⟨d₂, hp, hb'⟩
  · exact ⟨_, d₂, _, bind_eq hp, hb.trans hb', .inr (.inl ⟨f, rfl, rfl⟩)⟩
  · exact ⟨_, d₂, _, bind_eq hp, hb.trans hb', .inr (.inr ⟨rfl, rfl⟩)⟩

theorem finalize_spec :
    ∃ r d' cs, finalize topic e d = (r, d') ∧ Finalizing topic e d r cs ∧ Booked d cs d' := by
  unfold finalize
  obtain ⟨r, d₁, cs, hr, hc, hb⟩ :=
    reserve_spec e.hubId e.skuId d e.tenantId e.quantity.toInt64 .onHandLessReserved
  rw [bind_eq hr]
  cases hc with
  | unanswered => exact ⟨_, d₁, _, rfl, .unanswered, hb⟩
  | noRecord missing =>
    obtain ⟨hm, hn⟩ := isMissingRecord_of_onlyRecord missing
    dsimp only
    rw [if_pos hm]
    exact ⟨_, d₁, _, rfl, .noRecord hn, hb⟩
  | insufficient record short => exact ⟨_, d₁, _, rfl, .onHold record short, hb⟩
  | notPut record enough => exact ⟨_, d₁, _, rfl, .notPut ⟨record, enough⟩, hb⟩
  | put record enough =>
    obtain ⟨r, d₂, cs, hr, hb', hc⟩ := completeOrder_spec topic e d₁
    have hh : d₁.holds e.orderId = d.holds e.orderId := by
      unfold Depot.holds
      rw [hb.supply, hb.orders_eq]
      rfl
    rw [hh, hb.supply] at hc
    refine ⟨r, d₂, _, hr, ?_, hb.trans hb'⟩
    rcases hc with ⟨f, rfl, rfl⟩ | ⟨f, rfl, rfl⟩ | ⟨rfl, rfl⟩
    · exact .notMoved ⟨record, enough⟩
    · exact .notTold ⟨record, enough⟩
    · exact .finalized ⟨record, enough⟩

/-- What is no announcement is passed over; an announcement is given one attempt. -/
theorem finalizer_cases (m : Message) :
    (∃ fault, (Json.Record.parse m.payload : Except Json.Fault OrderCreated) = .error fault ∧
      finalizer topic m d = (.ok (), d)) ∨
    (∃ e r d' cs, Json.Record.parse m.payload = .ok e ∧ finalize topic e d = (r, d') ∧
      Finalizing topic e d r cs ∧ Booked d cs d' ∧ finalizer topic m d = (r.map fun _ => (), d')) := by
  unfold finalizer
  cases hp : (Json.Record.parse m.payload : Except Json.Fault OrderCreated) with
  | error fault => exact .inl ⟨fault, rfl, rfl⟩
  | ok e =>
    obtain ⟨r, d', cs, hr, hc, hb⟩ := finalize_spec topic e d
    refine .inr ⟨e, r, d', cs, rfl, hr, hc, hb, ?_⟩
    dsimp only
    rw [bind_eq hr]
    cases r <;> rfl

end

end Fulfilment
