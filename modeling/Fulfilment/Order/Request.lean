import Fulfilment.Event.Basic
import Fulfilment.Text.Blank

/-!
# Order requests

An order as it is submitted, and what makes it invalid. The first fault found is told: an empty identifier before the
quantity.

* `OrderRequest.validate`: the check that every order passes before it is stored.
-/

namespace Fulfilment

open Json

inductive ValidationError
  | missingField (name : String)
  | nonPositiveQuantity (quantity : Int32)
  | nonNumericQuantity (text : String)
  | encoding (name : String)
  deriving DecidableEq

namespace ValidationError

def message : ValidationError → String
  | missingField name => name ++ " must not be empty"
  | nonPositiveQuantity quantity => s!"quantity must be greater than zero, got {quantity.toInt}"
  | nonNumericQuantity text => s!"quantity {quoted text} is not a whole number"
  | encoding name => name ++ " is not valid UTF-8"

end ValidationError

structure OrderRequest where
  tenantId : String
  sellerId : String
  hubId : String
  skuId : String
  quantity : Int32
  deriving DecidableEq

instance : Record OrderRequest where
  title := "OrderRequest"
  fields :=
    [.required "tenant_id" .text, .required "seller_id" .text, .required "hub_id" .text, .required "sku_id" .text,
      .required "quantity" .int32]
  ofRow := fun (tenantId, sellerId, hubId, skuId, quantity, ()) => { tenantId, sellerId, hubId, skuId, quantity }
  toRow r := (r.tenantId, r.sellerId, r.hubId, r.skuId, r.quantity, ())

namespace OrderRequest

/-- The identifiers without white space at their ends, the form in which they are stored. -/
def trimmed (r : OrderRequest) : OrderRequest where
  tenantId := Fulfilment.trimmed r.tenantId
  sellerId := Fulfilment.trimmed r.sellerId
  hubId := Fulfilment.trimmed r.hubId
  skuId := Fulfilment.trimmed r.skuId
  quantity := r.quantity

/-- The identifiers by their names. -/
def identifiers (r : OrderRequest) : List (String × String) :=
  [("tenant_id", r.tenantId), ("seller_id", r.sellerId), ("hub_id", r.hubId), ("sku_id", r.skuId)]

def validate (r : OrderRequest) : Except ValidationError Unit :=
  match r.identifiers.find? fun i => blank i.2 with
  | some (name, _) => .error (.missingField name)
  | none => if r.quantity ≤ 0 then .error (.nonPositiveQuantity r.quantity) else .ok ()

end OrderRequest

end Fulfilment
