import Fulfilment.Csv.Reader
import Fulfilment.Failure
import Fulfilment.Order.Request

/-!
# Columns of an order file

Where a file of orders has its identifiers and quantities, found by the names in its header, and the request that a
row makes. White space around names and fields does not count.

* `Columns.ofHeader`: every required column must be there; of columns of one name the last counts.
* `Columns.parse`: the request of a row, or the first fault in it.
-/

namespace Fulfilment

structure Columns where
  tenantId : Nat
  sellerId : Nat
  hubId : Nat
  skuId : Nat
  quantity : Nat
  deriving DecidableEq, Repr

namespace Columns

def required : List String := ["tenant_id", "seller_id", "hub_id", "sku_id", "quantity"]

/-- The name that a field of the header holds. -/
def nameOf (field : Bytes) : String := String.ofList (Blank.trim (Utf8.decodeLossy field))

/-- The last of the fields with a name, the first of them being number `start`. -/
def indexFrom (name : String) (start : Nat) : Row → Option Nat
  | [] => none
  | field :: rest =>
    match indexFrom name (start + 1) rest with
    | some i => some i
    | none => if nameOf field = name then some start else none

def index? (header : Row) (name : String) : Option Nat := indexFrom name 0 header

def ofHeader (header : Row) : Except Failure Columns :=
  match index? header "tenant_id", index? header "seller_id", index? header "hub_id", index? header "sku_id",
      index? header "quantity" with
  | some tenantId, some sellerId, some hubId, some skuId, some quantity =>
    .ok { tenantId, sellerId, hubId, skuId, quantity }
  | _, _, _, _, _ =>
    let missing := required.filter fun name => (index? header name).isNone
    .error (.ofMessage ("header is missing required columns: " ++ ", ".intercalate missing))

/-- The text of a field; one beyond the end of the row is empty. -/
def field (row : Row) (i : Nat) (name : String) : Except ValidationError String :=
  match Utf8.decode? ((row[i]?).getD []) with
  | some cs => .ok (String.ofList (Blank.trim cs))
  | none => .error (.encoding name)

/-- The quantity that a text writes. -/
def quantityOf (s : String) : Except ValidationError Int32 :=
  match readInt min32 max32 s.toList with
  | .ok n => .ok (Int32.ofInt n)
  | .error _ => .error (.nonNumericQuantity s)

def parse (c : Columns) (row : Row) : Except ValidationError OrderRequest := do
  let quantityText ← field row c.quantity "quantity"
  let tenantId ← field row c.tenantId "tenant_id"
  let sellerId ← field row c.sellerId "seller_id"
  let hubId ← field row c.hubId "hub_id"
  let skuId ← field row c.skuId "sku_id"
  let quantity ← quantityOf quantityText
  let request : OrderRequest := { tenantId, sellerId, hubId, skuId, quantity }
  request.validate
  return request

end Columns

end Fulfilment
