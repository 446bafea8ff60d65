import Fulfilment.Json.Record

/-!
# Stock

What is known of the stock of one article at one hub, and how much of it may be set aside.

* `Snapshot.available`: the two rules for what counts as available.
* `Snapshot.after?`: what is left on hand when a quantity is set aside, if it may be.
-/

namespace Fulfilment

open Json

structure Snapshot where
  hubId : String
  skuId : String
  onHand : Int64
  reserved : Int64
  updatedAt : Option Instant
  deriving DecidableEq

/-- Reserved stock may be left out or null, and is then none. -/
instance : Record Snapshot where
  title := "InventorySnapshot"
  fields :=
    [.required "hub_id" .text, .required "sku_id" .text, .required "quantity_on_hand" .int64,
      ⟨"quantity_reserved", Int64, Codec.int64.orElse 0, .always 0⟩,
      ⟨"updated_at", Option Instant, Codec.instant.optional, .always none⟩]
  ofRow := fun (hubId, skuId, onHand, reserved, updatedAt, ()) => { hubId, skuId, onHand, reserved, updatedAt }
  toRow s := (s.hubId, s.skuId, s.onHand, s.reserved, s.updatedAt, ())

/-- What stock is put to: the new figure on hand. -/
structure StockUpdate where
  tenantId : String
  hubId : String
  skuId : String
  quantity : Int64
  deriving DecidableEq

instance : Record StockUpdate where
  title := "InventoryUpdate"
  fields :=
    [.required "tenant_id" .text, .required "hub_id" .text, .required "sku_id" .text, .required "quantity" .int64]
  ofRow := fun (tenantId, hubId, skuId, quantity, ()) => { tenantId, hubId, skuId, quantity }
  toRow u := (u.tenantId, u.hubId, u.skuId, u.quantity, ())

/-- What counts as available. -/
inductive AvailabilityRule
  | onHand
  | onHandLessReserved
  deriving DecidableEq, Repr

namespace Snapshot

/-- Whether the snapshot is that of the article at the hub. -/
def isOf (s : Snapshot) (hubId skuId : String) : Bool := s.hubId == hubId && s.skuId == skuId

/-- Figures below zero count as zero. -/
def available (s : Snapshot) : AvailabilityRule → Int
  | .onHand => max s.onHand.toInt 0
  | .onHandLessReserved => max s.onHand.toInt 0 - max s.reserved.toInt 0

/-- What is left on hand when `quantity` is set aside; nothing where the rule forbids that, or nothing would be left
to count. -/
def after? (s : Snapshot) (rule : AvailabilityRule) (quantity : Int64) : Option Int64 :=
  let left := s.onHand.toInt - quantity.toInt
  if quantity.toInt ≤ s.available rule ∧ 0 ≤ left ∧ left ≤ max64 then some (Int64.ofInt left) else none

end Snapshot

inductive InventoryError
  | lookup (reason : String)
  | notFound (hubId skuId : String)
  | ambiguous (hubId skuId : String) (count : Nat)
  | update (reason : String)
  deriving DecidableEq, Repr

namespace InventoryError

def message : InventoryError → String
  | lookup reason => "inventory lookup failed: " ++ reason
  | notFound hubId skuId => s!"no inventory record for hub {hubId} / sku {skuId}"
  | ambiguous hubId skuId count => s!"{count} inventory records for hub {hubId} / sku {skuId}, expected exactly one"
  | update reason => "inventory update failed: " ++ reason

/-- Whether there was an answer, but no single record. Asking again does not help then. -/
def isMissingRecord : InventoryError → Bool
  | notFound .. | ambiguous .. => true
  | lookup _ | update _ => false

end InventoryError

end Fulfilment
