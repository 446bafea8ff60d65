import Fulfilment.Depot.Basic

/-!
# Finalizing an order

When an order is announced, stock is set aside for it by the strict rule, the order is moved to `new_order`, and the
update is published. Without stock, or without a single record of it, the order stays on hold. Any other failure is
passed on, and a further attempt sets stock aside once more.

* `finalize`: one attempt.
* `finalizer`: the handler of announcements. What is no announcement is dropped.
-/

namespace Fulfilment

inductive Finalization
  | finalized
  | onHold (available : Int)
  | noInventoryRecord
  deriving DecidableEq, Repr

/-- Moves the order, and publishes the update whether or not it was on hold. -/
def completeOrder (updatedTopic : String) (e : OrderCreated) : Work (Except Failure Finalization) := do
  match ← Depot.markNewOrder e.orderId with
  | .error f => return .error f
  | .ok _ =>
    let now := (← get).supply.now
    match ← Depot.publishRecord updatedTopic e.orderId.render (e.finalized now) with
    | .error f => return .error f
    | .ok () => return .ok .finalized

def finalize (updatedTopic : String) (e : OrderCreated) : Work (Except Failure Finalization) := do
  match ← Depot.inventory.reserve e.tenantId e.hubId e.skuId e.quantity.toInt64 .onHandLessReserved with
  | .error err =>
    if err.isMissingRecord then return .ok .noInventoryRecord else return .error (.ofMessage err.message)
  | .ok (.insufficient available) => return .ok (.onHold available)
  | .ok (.reserved _ _) => completeOrder updatedTopic e

def finalizer (updatedTopic : String) : Handler Work := fun message => do
  match (Json.Record.parse message.payload : Except Json.Fault OrderCreated) with
  | .error _ => return .ok ()
  | .ok e =>
    match ← finalize updatedTopic e with
    | .error f => return .error f
    | .ok _ => return .ok ()

end Fulfilment
