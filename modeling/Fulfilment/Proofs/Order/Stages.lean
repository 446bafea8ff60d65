import Fulfilment.Proofs.Depot.Replay
import Fulfilment.Proofs.Order.Finalization

/-!
# The stages of finalizing an order

One attempt looks up the stock, puts the figure, moves the order and publishes the update, in this order, and stops
behind the first call that fails, or behind the lookup if no stock can be set aside. How far it has come is what it
tells (`Staged`): that the order is finalized if all four calls have succeeded, a failure if one of them has not, and
that the order waits if there was nothing but a lookup that was answered. An order that waits has changed nothing.
-/

namespace Fulfilment

open Depot (Replayed)

/-- The order is left on hold, for want of stock or of a single record of it. -/
def Finalization.waits : Finalization → Bool
  | finalized => false
  | onHold _ | noInventoryRecord => true

/-- How far an attempt to finalize an order has come, and what it tells. -/
structure Staged (topic : String) (e : OrderCreated) (d : Depot) (r : Except Failure Finalization) (cs : List Call)
    (d' : Depot) : Prop where
  calls : d'.calls = d.calls ++ cs
  /-- The calls end as the depot has it, and nothing else is done. -/
  replayed : Replayed d cs d'
  /-- The calls are the first of four. -/
  stages : ∃ found left put moved told,
    cs <+: [.lookup e.hubId e.skuId found, .setOnHand ⟨e.tenantId, e.hubId, e.skuId, left⟩ put,
      .markNewOrder e.orderId moved, e.telling topic d.supply.now told]
  /-- A figure is put only where stock can be set aside, and it is what is left then. -/
  covered : ∀ u put, .setOnHand u put ∈ cs →
    ∃ s left, e.Covered d s left ∧ u = ⟨e.tenantId, e.hubId, e.skuId, left⟩
  /-- No call is made behind one that has failed. -/
  proceeds : ∀ c ∈ cs.dropLast, c.succeeded = true
  /-- The calls stop short only where one has failed, or where no stock can be set aside. -/
  stops : cs.length = 4 ∨ (∃ c, cs.getLast? = some c ∧ c.succeeded = false) ∨
    (cs.length = 1 ∧ ¬ ∃ s left, e.Covered d s left)
  finalized_iff : r = .ok .finalized ↔ cs.length = 4 ∧ ∀ c ∈ cs, c.succeeded = true
  error_iff : (∃ f, r = .error f) ↔ ∃ c ∈ cs, c.succeeded = false
  waits_iff : (∃ outcome, r = .ok outcome ∧ outcome.waits = true) ↔ cs.length = 1 ∧ ∀ c ∈ cs, c.succeeded = true

/-- Orders before and after the one of an identifier is taken off hold: it is not on hold any more, and all others are
what they were. -/
structure OffHold (id : Uuid) (orders orders' : List Order) : Prop where
  ids : orders'.map (·.id) = orders.map (·.id)
  released : ∀ o ∈ orders', o.id = id → o.isOnHold = false
  others : ∀ (i : Nat) (o : Order), orders[i]? = some o → o.id ≠ id → orders'[i]? = some o

theorem offHold_moveOrder {id : Uuid} {now : Instant} {orders : List Order}
    (unique : (orders.map (·.id)).count id ≤ 1) :
    OffHold id orders ((Depot.moveOrder id now orders).getD orders) := by
  refine ⟨Depot.map_moveOrder fun _ => rfl, Depot.not_isOnHold_moveOrder unique, fun i o hi hne => ?_⟩
  cases hm : Depot.moveOrder id now orders with
  | none => exact hi
  | some orders' =>
    rcases Depot.getElem?_moveOrder hm hi with hi' | ⟨hid, -⟩
    · exact hi'
    · exact absurd hid hne

section

variable {topic : String} {e : OrderCreated} {d d' : Depot} {r : Except Failure Finalization} {cs : List Call}

theorem Finalizing.stages (h : Finalizing topic e d r cs) : ∃ found left put moved told,
    cs <+: [.lookup e.hubId e.skuId found, .setOnHand ⟨e.tenantId, e.hubId, e.skuId, left⟩ put,
      .markNewOrder e.orderId moved, e.telling topic d.supply.now told] := by
  -- how the calls would have ended that were not made does not matter
  have left := e.quantity.toInt64
  cases h with
  | unanswered => exact ⟨none, left, false, none, false, ⟨_, rfl⟩⟩
  | noRecord => exact ⟨_, left, false, none, false, ⟨_, rfl⟩⟩
  | onHold => exact ⟨_, left, false, none, false, ⟨_, rfl⟩⟩
  | notPut => exact ⟨_, _, _, none, false, ⟨_, rfl⟩⟩
  | notMoved => exact ⟨_, _, _, _, false, ⟨_, rfl⟩⟩
  | notTold => exact ⟨_, _, _, _, _, ⟨_, rfl⟩⟩
  | finalized => exact ⟨_, _, _, _, _, ⟨_, rfl⟩⟩

theorem Finalizing.stops (h : Finalizing topic e d r cs) :
    cs.length = 4 ∨ (∃ c, cs.getLast? = some c ∧ c.succeeded = false) ∨
      (cs.length = 1 ∧ ¬ ∃ s left, e.Covered d s left) := by
  cases h with
  | noRecord missing =>
    refine .inr (.inr ⟨rfl, ?_⟩)
    rintro ⟨s, left, covered⟩
    exact missing (by rw [covered.record]; rfl)
  | onHold record short =>
    refine .inr (.inr ⟨rfl, ?_⟩)
    rintro ⟨s, left, covered⟩
    obtain rfl : s = _ := List.head_eq_of_cons_eq (covered.record.symm.trans record)
    cases covered.enough.symm.trans short
  | unanswered => exact .inr (.inl ⟨_, rfl, rfl⟩)
  | notPut => exact .inr (.inl ⟨_, rfl, rfl⟩)
  | notMoved => exact .inr (.inl ⟨_, rfl, rfl⟩)
  | notTold => exact .inl rfl
  | finalized => exact .inl rfl

theorem Finalizing.staged (h : Finalizing topic e d r cs) (hr : Replayed d cs d') : Staged topic e d r cs d' where
  calls := hr.calls
  replayed := hr
  stages := h.stages
  covered _ _ hc := h.covered hc
  proceeds := by cases h <;> simp [OrderCreated.taking, OrderCreated.telling, Call.succeeded]
  stops := h.stops
  finalized_iff := by cases h <;> simp [OrderCreated.taking, OrderCreated.telling, Call.succeeded]
  error_iff := by cases h <;> simp [OrderCreated.taking, OrderCreated.telling, Call.succeeded]
  waits_iff := by cases h <;> simp [OrderCreated.taking, OrderCreated.telling, Call.succeeded, Finalization.waits]

/-- Where the order waits, the lookup has worn the outage of lookups, and that is all. -/
theorem Finalizing.of_waits {outcome : Finalization} (h : Finalizing topic e d (.ok outcome) cs)
    (hr : Replayed d cs d') (waits : outcome.waits = true) :
    ∃ found, d' = { d with lookups := d.lookups.worn }.logged (.lookup e.hubId e.skuId (some found)) := by
  cases h with
  | noRecord => exact ⟨_, hr.2⟩
  | onHold => exact ⟨_, hr.2⟩
  | finalized => cases waits

end

theorem finalize_replays (topic : String) (e : OrderCreated) : Replays (finalize topic e) := by
  have complete : Replays (completeOrder topic e) := by
    refine (Replays.markNewOrder e.orderId).bind fun moved => ?_
    cases moved with
    | error => exact .pure _
    | ok =>
      refine Replays.get.bind fun d => (Replays.publishRecord topic _ _).bind fun told => ?_
      cases told <;> exact .pure _
  refine (Replays.reserve e.tenantId e.hubId e.skuId _ .onHandLessReserved).bind fun reserved => ?_
  match reserved with
  | .error err =>
    dsimp only
    split <;> exact .pure _
  | .ok (.insufficient _) => exact .pure _
  | .ok (.reserved _ _) => exact complete

/-- An attempt to finalize an order goes through its stages and tells how far it has come. The order that is finalized
is not on hold any more, if it is the only one of its identifier; and while an order waits, nothing changes. -/
theorem finalize_stages (topic : String) (e : OrderCreated) (d : Depot) :
    ∃ r d' cs, finalize topic e d = (r, d') ∧ Staged topic e d r cs d' ∧
      (r = .ok .finalized → (d.orders.map (·.id)).count e.orderId ≤ 1 → OffHold e.orderId d.orders d'.orders) ∧
      ∀ outcome, r = .ok outcome → outcome.waits = true →
        ∃ found, d' = { d with lookups := d.lookups.worn }.logged (.lookup e.hubId e.skuId (some found)) := by
  obtain ⟨r, d', cs, hf, fared, hb⟩ := finalize_spec topic e d
  have hr := (finalize_replays topic e).of_booked hf hb
  refine ⟨r, d', cs, hf, fared.staged hr, ?_, ?_⟩
  · rintro rfl unique
    cases fared with
    | finalized covered =>
      rw [orders_of_moving hb]
      exact offHold_moveOrder unique
  · rintro outcome rfl waits
    exact fared.of_waits hr waits

end Fulfilment
