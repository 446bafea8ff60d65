import Fulfilment.Blob.Basic
import Fulfilment.Bus.Basic
import Fulfilment.Inventory.Reservation
import Fulfilment.Order.Filter

/-!
# The depot

What the services work with: stock, orders, files and the bus, all held in memory, each of which may be out of order,
and the record of every call that was made. A `Work` is a program over the depot.

* `Call`: one call with its outcome, in the order in which they were made.
-/

namespace Fulfilment

/-- An order before the store gives it an identifier and a time. -/
structure Draft where
  tenantId : String
  sellerId : String
  hubId : String
  skuId : String
  quantity : Int32
  status : String
  deriving DecidableEq

/-- The order that a draft becomes. -/
def Draft.order (d : Draft) (id : Uuid) (time : Instant) : Order where
  id := id
  tenantId := d.tenantId
  sellerId := d.sellerId
  hubId := d.hubId
  skuId := d.skuId
  quantity := d.quantity
  status := d.status
  createdAt := time
  updatedAt := time

inductive Call
  /-- How many records were found, if the call succeeded. -/
  | lookup (hubId skuId : String) (found : Option Nat)
  | setOnHand (update : StockUpdate) (succeeded : Bool)
  | insert (draft : Draft) (id : Option Uuid)
  /-- Whether the order was on hold, if the call succeeded. -/
  | markNewOrder (id : Uuid) (moved : Option Bool)
  | publish (topic key : String) (payload : Bytes) (succeeded : Bool)
  | blobGet (bucket key : String) (limit : Nat) (succeeded : Bool)
  | blobPut (bucket key : String) (body : Bytes) (succeeded : Bool)
  /-- Whether the file exists, if the call succeeded. -/
  | blobExists (bucket key : String) (found : Option Bool)

/-- What is given from outside: the time, and the identifiers and times that are to come. -/
structure Supply where
  now : Instant
  /-- Identifier and time of the order stored as the `n`th. -/
  order : Nat → Uuid × Instant
  /-- Identifier of the file stored as the `n`th. -/
  upload : Nat → Uuid

/-- A row that was set aside, by its number from one, and why. -/
structure Rejection where
  row : Nat
  reason : String
  deriving DecidableEq, Repr

structure Depot where
  supply : Supply
  stock : List Snapshot
  lookups : Outage
  updates : Outage
  orders : List Order
  /-- How many orders have been stored since the depot was opened. -/
  inserted : Nat
  inserts : Outage
  marks : Outage
  listing : Outage
  blobs : List Blob
  puts : Outage
  checks : Outage
  /-- How many names for files have been given out. -/
  uploads : Nat
  bus : Bus
  calls : List Call
  rejections : List Rejection

abbrev Work := StateM Depot

namespace Depot

/-- A depot with nothing in it. -/
def opened (supply : Supply) : Depot where
  supply := supply
  stock := []
  lookups := .none
  updates := .none
  orders := []
  inserted := 0
  inserts := .none
  marks := .none
  listing := .none
  blobs := []
  puts := .none
  checks := .none
  uploads := 0
  bus := .empty
  calls := []
  rejections := []

def logged (d : Depot) (c : Call) : Depot := { d with calls := d.calls ++ [c] }

/-! ### Stock -/

/-- The records of an article at a hub. -/
def records (d : Depot) (hubId skuId : String) : List Snapshot := d.stock.filter (·.isOf hubId skuId)

/-- The figure on hand of the first record of an article at a hub. -/
def onHand? (d : Depot) (hubId skuId : String) : Option Int64 := (d.stock.find? (·.isOf hubId skuId)).map (·.onHand)

/-- Puts the figure on hand of the first record of an article at a hub. -/
def putOnHand (hubId skuId : String) (quantity : Int64) : List Snapshot → List Snapshot
  | [] => []
  | s :: rest =>
    if s.isOf hubId skuId then { s with onHand := quantity } :: rest else s :: putOnHand hubId skuId quantity rest

def lookup (hubId skuId : String) : Work (Except InventoryError (List Snapshot)) := fun d =>
  let d' := { d with lookups := d.lookups.worn }
  if d.lookups.strikes then (.error (.lookup "connection refused"), d'.logged (.lookup hubId skuId none))
  else
    let records := d.records hubId skuId
    (.ok records, d'.logged (.lookup hubId skuId (some records.length)))

def setOnHand (u : StockUpdate) : Work (Except InventoryError Unit) := fun d =>
  let d' := { d with updates := d.updates.worn }
  if d.updates.strikes then (.error (.update "503 Service Unavailable"), d'.logged (.setOnHand u false))
  else (.ok (), { d' with stock := putOnHand u.hubId u.skuId u.quantity d.stock }.logged (.setOnHand u true))

def inventory : Inventory Work := ⟨lookup, setOnHand⟩

/-! ### Orders -/

def insert (draft : Draft) : Work (Except Failure Order) := fun d =>
  let d' := { d with inserts := d.inserts.worn }
  if d.inserts.strikes then (.error (.ofMessage "connection to order store lost"), d'.logged (.insert draft none))
  else
    let n := d.inserted + 1
    let order := draft.order (d.supply.order n).1 (d.supply.order n).2
    (.ok order, { d' with orders := d.orders ++ [order], inserted := n }.logged (.insert draft (some order.id)))

/-- Moves the first order with that identifier that is on hold to `new_order`, if there is one. -/
def moveOrder (id : Uuid) (now : Instant) : List Order → Option (List Order)
  | [] => none
  | o :: rest =>
    if o.id = id ∧ o.isOnHold then some ({ o with status := OrderStatus.newOrder.name, updatedAt := now } :: rest)
    else (moveOrder id now rest).map (o :: ·)

/-- Moves an order on hold to `new_order`, and tells whether there was one. -/
def markNewOrder (id : Uuid) : Work (Except Failure Bool) := fun d =>
  let d' := { d with marks := d.marks.worn }
  if d.marks.strikes then (.error (.ofMessage "order store timed out"), d'.logged (.markNewOrder id none))
  else
    match moveOrder id d.supply.now d.orders with
    | some orders => (.ok true, { d' with orders }.logged (.markNewOrder id (some true)))
    | none => (.ok false, d'.logged (.markNewOrder id (some false)))

def findOrder? (d : Depot) (id : Uuid) : Option Order := d.orders.find? (·.id == id)

def listOrders (f : OrderFilter) : Work (Except Failure (List Order)) := fun d =>
  if d.listing.strikes then (.error (.ofMessage "order store timed out"), d)
  else (.ok (Fulfilment.listOrders f d.orders), d)

/-! ### Files -/

def blob? (d : Depot) (bucket key : String) : Option Bytes :=
  (d.blobs.find? fun b => b.bucket == bucket && b.key == key).map (·.body)

/-- Stores a file in place of the one of that name. -/
def putBlob (b : Blob) : List Blob → List Blob
  | [] => [b]
  | b' :: rest => if b'.bucket = b.bucket ∧ b'.key = b.key then b :: rest else b' :: putBlob b rest

/-- A file of at most `limit` bytes. -/
def fetch (d : Depot) (bucket key : String) (limit : Nat) : Except Failure Bytes :=
  match d.blob? bucket key with
  | none => .error (.ofMessage s!"NoSuchKey: s3://{bucket}/{key}")
  | some body => if limit < body.length then .error (tooLarge bucket key limit) else .ok body

def getBlob (bucket key : String) (limit : Nat) : Work (Except Failure Bytes) := fun d =>
  let r := d.fetch bucket key limit
  (r, d.logged (.blobGet bucket key limit r.isOk))

def storeBlob (b : Blob) : Work (Except Failure Unit) := fun d =>
  let d' := { d with puts := d.puts.worn }
  if d.puts.strikes then
    (.error (.ofMessage s!"AccessDenied: s3://{b.bucket}/{b.key}"), d'.logged (.blobPut b.bucket b.key b.body false))
  else (.ok (), { d' with blobs := putBlob b d.blobs }.logged (.blobPut b.bucket b.key b.body true))

def blobExists (bucket key : String) : Work (Except Failure Bool) := fun d =>
  if d.checks.strikes then
    (.error (.ofMessage s!"s3://{bucket}/{key} is unreachable"), d.logged (.blobExists bucket key none))
  else
    let found := (d.blob? bucket key).isSome
    (.ok found, d.logged (.blobExists bucket key (some found)))

/-- The identifier in the name of the next file to be stored. -/
def nextUpload : Work Uuid := fun d => (d.supply.upload (d.uploads + 1), { d with uploads := d.uploads + 1 })

/-! ### The bus -/

def publish (topic key : String) (payload : Bytes) : Work (Except Failure Unit) := fun d =>
  let r := d.bus.publish ⟨topic, some key, payload⟩
  (r.1, { d with bus := r.2 }.logged (.publish topic key payload r.1.isOk))

/-- Publishes a record. -/
def publishRecord {α : Type} [Json.Record α] (topic key : String) (a : α) : Work (Except Failure Unit) :=
  publish topic key (Json.Record.encode a)

/-- Takes off all messages published so far. -/
def takePublished : Work (List Message) := fun d => (d.bus.published, { d with bus := d.bus.emptied })

/-- Notes a row that was set aside. -/
def reject (row : Nat) (reason : String) : Work Unit := fun d =>
  ((), { d with rejections := d.rejections ++ [Rejection.mk row reason] })

end Depot

end Fulfilment
