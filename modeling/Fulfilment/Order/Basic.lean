import Fulfilment.Event.Basic

/-!
# Orders

An order as it is stored, and the event that announces it. Its status is kept as text, so that orders from elsewhere
may have any.
-/

namespace Fulfilment

open Json

structure Order where
  id : Uuid
  tenantId : String
  sellerId : String
  hubId : String
  skuId : String
  quantity : Int32
  status : String
  createdAt : Instant
  updatedAt : Instant
  deriving DecidableEq

instance : Record Order where
  title := "Order"
  fields :=
    [.required "id" .uuid, .required "tenant_id" .text, .required "seller_id" .text, .required "hub_id" .text,
      .required "sku_id" .text, .required "quantity" .int32, .required "status" .text,
      .required "created_at" .instant, .required "updated_at" .instant]
  ofRow := fun (id, tenantId, sellerId, hubId, skuId, quantity, status, createdAt, updatedAt, ()) =>
    { id, tenantId, sellerId, hubId, skuId, quantity, status, createdAt, updatedAt }
  toRow o := (o.id, o.tenantId, o.sellerId, o.hubId, o.skuId, o.quantity, o.status, o.createdAt, o.updatedAt, ())

namespace Order

def createdEvent (o : Order) : OrderCreated where
  orderId := o.id
  tenantId := o.tenantId
  sellerId := o.sellerId
  hubId := o.hubId
  skuId := o.skuId
  quantity := o.quantity
  createdAt := o.createdAt

def isOnHold (o : Order) : Bool := o.status == OrderStatus.onHold.name

end Order

end Fulfilment
