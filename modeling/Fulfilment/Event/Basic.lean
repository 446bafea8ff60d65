import Fulfilment.Json.Record
import Fulfilment.Order.Status

/-!
# Events

What is told on the bus: that an order was created, that it was updated, that a delivery to a subscriber failed, and
that a file of orders waits to be taken in. Each is a record, so that it is written and read in one form.
-/

namespace Fulfilment

open Json

namespace Topic

def orderCreated : String := "order.created"

def orderUpdated : String := "order.updated"

def webhookFailed : String := "webhook.failed"

def bulkOrders : String := "order.bulk"

end Topic

structure OrderCreated where
  orderId : Uuid
  tenantId : String
  sellerId : String
  hubId : String
  skuId : String
  quantity : Int32
  createdAt : Instant
  deriving DecidableEq

instance : Record OrderCreated where
  title := "OrderCreatedEvent"
  fields :=
    [.required "order_id" .uuid, .required "tenant_id" .text, .required "seller_id" .text, .required "hub_id" .text,
      .required "sku_id" .text, .required "quantity" .int32, .required "created_at" .instant]
  ofRow := fun (orderId, tenantId, sellerId, hubId, skuId, quantity, createdAt, ()) =>
    { orderId, tenantId, sellerId, hubId, skuId, quantity, createdAt }
  toRow e := (e.orderId, e.tenantId, e.sellerId, e.hubId, e.skuId, e.quantity, e.createdAt, ())

structure OrderUpdated where
  orderId : Uuid
  tenantId : String
  sellerId : String
  hubId : String
  skuId : String
  quantity : Int32
  status : OrderStatus
  createdAt : Instant
  updatedAt : Instant
  deriving DecidableEq

instance : Record OrderUpdated where
  title := "OrderUpdatedEvent"
  fields :=
    [.required "order_id" .uuid, .required "tenant_id" .text, .required "seller_id" .text, .required "hub_id" .text,
      .required "sku_id" .text, .required "quantity" .int32, .required "status" OrderStatus.codec,
      .required "created_at" .instant, .required "updated_at" .instant]
  ofRow := fun (orderId, tenantId, sellerId, hubId, skuId, quantity, status, createdAt, updatedAt, ()) =>
    { orderId, tenantId, sellerId, hubId, skuId, quantity, status, createdAt, updatedAt }
  toRow e :=
    (e.orderId, e.tenantId, e.sellerId, e.hubId, e.skuId, e.quantity, e.status, e.createdAt, e.updatedAt, ())

/-- The update that says that stock was set aside for a created order. -/
def OrderCreated.finalized (e : OrderCreated) (updatedAt : Instant) : OrderUpdated where
  orderId := e.orderId
  tenantId := e.tenantId
  sellerId := e.sellerId
  hubId := e.hubId
  skuId := e.skuId
  quantity := e.quantity
  status := .newOrder
  createdAt := e.createdAt
  updatedAt := updatedAt

/-- A delivery that failed, with what should have been delivered. -/
structure DeadLetter where
  subscriptionId : Uuid
  event : String
  callbackUrl : String
  error : String
  payload : Value

instance : Record DeadLetter where
  title := "WebhookDeliveryFailure"
  fields :=
    [.required "subscription_id" .uuid, .required "event" .text, .required "callback_url" .text,
      .required "error" .text, .required "payload" .free]
  ofRow := fun (subscriptionId, event, callbackUrl, error, payload, ()) =>
    { subscriptionId, event, callbackUrl, error, payload }
  toRow d := (d.subscriptionId, d.event, d.callbackUrl, d.error, d.payload, ())

/-- A file of orders that waits to be taken in. -/
structure BulkJob where
  bucket : String
  key : String
  deriving DecidableEq

instance : Record BulkJob where
  title := "BulkIngestionJob"
  fields := [.required "bucket" .text, .required "key" .text]
  ofRow := fun (bucket, key, ()) => { bucket, key }
  toRow j := (j.bucket, j.key, ())

end Fulfilment
