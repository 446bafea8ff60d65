import Fulfilment.Depot.Basic
import Fulfilment.Order.Request

/-!
# Taking in an order

A single order is checked, its stock is set aside, it is stored on hold, and announced. When the announcement fails,
the order is there all the same.

* `createOrder`: the identifier of the new order, or the reason why there is none.
-/

namespace Fulfilment

inductive IntakeError
  | invalid (error : ValidationError)
  | inventoryUnavailable (error : InventoryError)
  | insufficientInventory (available : Int) (requested : Int32)
  | inventoryUpdateFailed (error : InventoryError)
  | persistence (failure : Failure)

namespace IntakeError

def message : IntakeError → String
  | invalid e => e.message
  | inventoryUnavailable e => "inventory unavailable: " ++ e.message
  | insufficientInventory available requested =>
    s!"insufficient inventory: {available} available, {requested.toInt} requested"
  | inventoryUpdateFailed e => "inventory update failed: " ++ e.message
  | persistence f => "failed to persist order: " ++ f.line

/-- What the failure of a reservation means for an order. -/
def ofInventoryError (e : InventoryError) : IntakeError :=
  match e with
  | .update _ => inventoryUpdateFailed e
  | e => inventoryUnavailable e

end IntakeError

/-- The order on hold that a request asks for. -/
def OrderRequest.draft (r : OrderRequest) : Draft where
  tenantId := r.tenantId
  sellerId := r.sellerId
  hubId := r.hubId
  skuId := r.skuId
  quantity := r.quantity
  status := OrderStatus.onHold.name

/-- Tells the bus that an order was stored. -/
def announce (createdTopic : String) (o : Order) : Work (Except Failure Unit) :=
  Depot.publishRecord createdTopic o.id.render o.createdEvent

/-- Stores and announces an order for which stock was set aside. -/
def storeOrder (createdTopic : String) (r : OrderRequest) : Work (Except IntakeError Uuid) := do
  match ← Depot.insert r.draft with
  | .error f => return .error (.persistence f)
  | .ok order =>
    let _ ← announce createdTopic order
    return .ok order.id

def createOrder (createdTopic : String) (request : OrderRequest) : Work (Except IntakeError Uuid) := do
  let r := request.trimmed
  match r.validate with
  | .error e => return .error (.invalid e)
  | .ok () =>
    match ← Depot.inventory.reserve r.tenantId r.hubId r.skuId r.quantity.toInt64 .onHand with
    | .error e => return .error (.ofInventoryError e)
    | .ok (.insufficient available) => return .error (.insufficientInventory available r.quantity)
    | .ok (.reserved _ _) => storeOrder createdTopic r

end Fulfilment
