import Fulfilment.Inventory.Stock

/-!
# Setting stock aside

Stock is set aside by looking up the one record of an article at a hub and putting the figure on hand to what is left.
The two are separate calls, so that of two reservations at once the later may overwrite the earlier.

* `Inventory.snapshot`: the one record.
* `Inventory.reserve`: no figure is put unless the record allows the quantity.
-/

namespace Fulfilment

/-- What keeps the stock. -/
structure Inventory (m : Type → Type) where
  lookup : (hubId skuId : String) → m (Except InventoryError (List Snapshot))
  setOnHand : StockUpdate → m (Except InventoryError Unit)

inductive ReserveOutcome
  | reserved (before after : Int64)
  | insufficient (available : Int)
  deriving DecidableEq

/-- The one record that a lookup has found. -/
def onlyRecord (hubId skuId : String) : List Snapshot → Except InventoryError Snapshot
  | [] => .error (.notFound hubId skuId)
  | [s] => .ok s
  | records => .error (.ambiguous hubId skuId records.length)

namespace Inventory

variable {m : Type → Type} [Monad m]

def snapshot (i : Inventory m) (hubId skuId : String) : m (Except InventoryError Snapshot) := do
  match ← i.lookup hubId skuId with
  | .error e => return .error e
  | .ok records => return onlyRecord hubId skuId records

def reserve (i : Inventory m) (tenantId hubId skuId : String) (quantity : Int64) (rule : AvailabilityRule) :
    m (Except InventoryError ReserveOutcome) := do
  match ← i.snapshot hubId skuId with
  | .error e => return .error e
  | .ok s =>
    match s.after? rule quantity with
    | none => return .ok (.insufficient (s.available rule))
    | some after =>
      match ← i.setOnHand { tenantId, hubId, skuId, quantity := after } with
      | .error e => return .error e
      | .ok () => return .ok (.reserved s.onHand after)

end Inventory

end Fulfilment
