import Fulfilment.Order.Basic
import Fulfilment.Time.Newest

/-!
# Listing orders

Which orders a listing holds, and in which order: the newest first, and of orders of one time those stored earlier.
-/

namespace Fulfilment

open Json

/-- The conditions of a listing; both ends of the time span belong to it. -/
structure OrderFilter where
  tenantId : Option String
  sellerId : Option String
  status : Option OrderStatus
  since : Option Instant
  till : Option Instant

instance : Record OrderFilter where
  title := "OrderFilter"
  fields :=
    [.optional "tenant_id" .text, .optional "seller_id" .text, .optional "status" OrderStatus.codec,
      .optional "from" .instant, .optional "to" .instant]
  ofRow := fun (tenantId, sellerId, status, since, till, ()) => { tenantId, sellerId, status, since, till }
  toRow f := (f.tenantId, f.sellerId, f.status, f.since, f.till, ())

namespace OrderFilter

def admits (f : OrderFilter) (o : Order) : Bool :=
  f.tenantId.all (· == o.tenantId) && f.sellerId.all (· == o.sellerId) && f.status.all (·.name == o.status) &&
    f.since.all (fun t => decide (t ≤ o.createdAt)) && f.till.all (fun t => decide (o.createdAt ≤ t))

end OrderFilter

/-- The orders that a listing holds. -/
def listOrders (f : OrderFilter) (orders : List Order) : List Order :=
  newestFirst Order.createdAt (orders.filter f.admits)

end Fulfilment
