import Fulfilment.Order.Intake
import Fulfilment.Proofs.Inventory.Reservation

/-!
# How taking in an order fares

All that taking in an order can come to, with the calls it makes (`createOrder_spec`). How an order is stored and
announced (`announce_spec`) is shared with the rows of files.
-/

namespace Fulfilment

open Depot (Booked)
open Program (bind_eq)

/-- The call that announces an order. -/
def Order.announcing (o : Order) (topic : String) (succeeded : Bool) : Call :=
  .publish topic o.id.render (Json.Record.encode o.createdEvent) succeeded

theorem announce_spec (topic : String) (o : Order) (d : Depot) :
    (∃ f d', announce topic o d = (.error f, d') ∧ Booked d [o.announcing topic false] d') ∨
    (∃ d', announce topic o d = (.ok (), d') ∧ Booked d [o.announcing topic true] d') :=
  Depot.publish_spec topic o.id.render (Json.Record.encode o.createdEvent) d

/-- The calls by which the order of a request is stored and announced. -/
def OrderRequest.storing (r : OrderRequest) (topic : String) (d : Depot) (told : Bool) : List Call :=
  [.insert r.draft (some (d.nextOrder r.draft).id), (d.nextOrder r.draft).announcing topic told]

/-- Calls that leave the orders alone, and then those that store and announce an order, store that order. -/
theorem orders_of_storing {topic : String} {r : OrderRequest} {told : Bool} {d d' : Depot} {cs : List Call}
    (h : Booked d (cs ++ r.storing topic d told) d') (hc : ∀ c ∈ cs, c.writesOrders = false) :
    d'.orders = d.orders ++ [d.nextOrder r.draft] := by
  let l := cs.foldl (Ledger.book d.supply) d.ledger
  obtain ⟨ho, hi⟩ : l.orders = d.orders ∧ l.inserted = d.inserted := Ledger.foldl_book_orders hc
  rw [h.orders_eq, List.foldl_append]
  show l.orders ++ [r.draft.order (d.nextOrder r.draft).id (d.supply.order (l.inserted + 1)).2] = _
  rw [ho, hi]
  rfl

theorem storeOrder_spec (topic : String) (r : OrderRequest) (d : Depot) :
    (∃ f d', storeOrder topic r d = (.error (.persistence f), d') ∧ Booked d [.insert r.draft none] d') ∨
    (∃ told d', storeOrder topic r d = (.ok (d.nextOrder r.draft).id, d') ∧
      Booked d (r.storing topic d told) d') := by
  unfold storeOrder
  rcases Depot.insert_spec r.draft d with ⟨d₁, hi, hb⟩ | ⟨d₁, hi, hb⟩
  · exact .inl ⟨_, d₁, bind_eq hi, hb⟩
  rw [bind_eq hi]
  dsimp only
  rcases announce_spec topic (d.nextOrder r.draft) d₁ with ⟨f, d₂, ha, hb'⟩ | ⟨d₂, ha, hb'⟩
  · exact .inr ⟨false, d₂, bind_eq ha, hb.trans hb'⟩
  · exact .inr ⟨true, d₂, bind_eq ha, hb.trans hb'⟩

/-- How the reservation for a request fares. -/
def OrderRequest.Reserving (r : OrderRequest) (d : Depot) : Except InventoryError ReserveOutcome → List Call → Prop :=
  Fulfilment.Reserving d r.tenantId r.hubId r.skuId r.quantity.toInt64 .onHand

/-- What taking in an order tells, and the calls it makes. -/
inductive Creating (topic : String) (request : OrderRequest) (d : Depot) :
    Except IntakeError Uuid → List Call → Prop
  | invalid {e : ValidationError} (fault : request.trimmed.validate = .error e) :
    Creating topic request d (.error (.invalid e)) []
  | notReserved {e : InventoryError} {cs : List Call} (valid : request.trimmed.validate = .ok ())
      (reserving : request.trimmed.Reserving d (.error e) cs) :
    Creating topic request d (.error (.ofInventoryError e)) cs
  | insufficient {available : Int} {cs : List Call} (valid : request.trimmed.validate = .ok ())
      (reserving : request.trimmed.Reserving d (.ok (.insufficient available)) cs) :
    Creating topic request d (.error (.insufficientInventory available request.quantity)) cs
  | notStored {before after : Int64} {f : Failure} {cs : List Call} (valid : request.trimmed.validate = .ok ())
      (reserving : request.trimmed.Reserving d (.ok (.reserved before after)) cs) :
    Creating topic request d (.error (.persistence f)) (cs ++ [.insert request.trimmed.draft none])
  | stored {before after : Int64} {cs : List Call} (told : Bool) (valid : request.trimmed.validate = .ok ())
      (reserving : request.trimmed.Reserving d (.ok (.reserved before after)) cs) :
    Creating topic request d (.ok (d.nextOrder request.trimmed.draft).id) (cs ++ request.trimmed.storing topic d told)

theorem createOrder_spec (topic : String) (request : OrderRequest) (d : Depot) :
    ∃ r d' cs, createOrder topic request d = (r, d') ∧ Creating topic request d r cs ∧ Booked d cs d' := by
  unfold createOrder
  cases hv : request.trimmed.validate with
  | error e => exact ⟨_, d, [], rfl, .invalid hv, .refl d⟩
  | ok u =>
    obtain ⟨r, d₁, cs, hr, hc, hb⟩ := reserve_spec request.trimmed.hubId request.trimmed.skuId d
      request.trimmed.tenantId request.trimmed.quantity.toInt64 .onHand
    dsimp only
    rw [bind_eq hr]
    match r, hc with
    | .error e, hc => exact ⟨_, d₁, cs, rfl, .notReserved hv hc, hb⟩
    | .ok (.insufficient available), hc => exact ⟨_, d₁, cs, rfl, .insufficient hv hc, hb⟩
    | .ok (.reserved before after), hc =>
      have hn := hb.nextOrder_eq hc.not_writesOrders request.trimmed.draft
      rcases storeOrder_spec topic request.trimmed d₁ with ⟨f, d₂, hs, hb'⟩ | ⟨told, d₂, hs, hb'⟩
      · exact ⟨_, d₂, _, hs, .notStored hv hc, hb.trans hb'⟩
      · unfold OrderRequest.storing at hb'
        rw [hn] at hs hb'
        exact ⟨_, d₂, _, hs, .stored told hv hc, hb.trans hb'⟩

end Fulfilment
