import Fulfilment.Bulk.Worker
import Fulfilment.Http.Multipart
import Fulfilment.Http.Router
import Fulfilment.Order.Finalizer

/-!
# The order service

The routes on which orders are taken in and listed, and files of orders are submitted or uploaded. A file is queued as
a job for the bulk worker, and only if it is stored.

* `OrderService.respond`: the answer to a request.
-/

namespace Fulfilment

open Http Json

structure OrderSettings where
  createdTopic : String
  updatedTopic : String
  bulkTopic : String
  /-- How often a message is attempted. -/
  retryAttempts : Nat
  verifyInventory : Bool
  bulkMaxBytes : Nat
  /-- Where uploads are stored. -/
  uploadBucket : Option String
  maxUploadBytes : Nat

namespace OrderSettings

def bulk (s : OrderSettings) : BulkSettings where
  createdTopic := s.createdTopic
  verifyInventory := s.verifyInventory
  maxBytes := s.bulkMaxBytes

end OrderSettings

namespace OrderService

/-- The status of the answer to an order that is not taken in. -/
def intakeStatus : IntakeError → Nat
  | .invalid _ => 400
  | .insufficientInventory .. => 409
  | .inventoryUnavailable _ | .inventoryUpdateFailed _ => 503
  | .persistence _ => 500

def postOrder (s : OrderSettings) (r : Request) : Work Response := do
  match readBody OrderRequest r with
  | .error message => return .error 400 message
  | .ok request =>
    match ← createOrder s.createdTopic request with
    | .error e => return .error (intakeStatus e) e.message
    | .ok id => return .json 201 (printMembers [("order_id", Codec.uuid.print id)])

def getOrders (r : Request) : Work Response := do
  match readQuery OrderFilter r with
  | .error message => return .error 400 message
  | .ok filter =>
    match ← Depot.listOrders filter with
    | .error _ => return .error 500 "Failed to list orders"
    | .ok orders => return .json 200 (printMembers [("orders", printList (orders.map Record.print))])

/-- Queues a job for the bulk worker. -/
def queueJob (s : OrderSettings) (job : BulkJob) : Work Response := do
  match ← Depot.publishRecord s.bulkTopic job.key job with
  | .error _ => return .error 500 "Failed to queue bulk job"
  | .ok () =>
    return .json 202 (printMembers
      [("bucket", printText job.bucket), ("key", printText job.key), ("status", printText "queued")])

/-- Whether a key has two dots in a row. -/
def hasDoubleDot : List Char → Bool
  | '.' :: '.' :: _ => true
  | _ :: rest => hasDoubleDot rest
  | [] => false

/-- Why a job may not be queued, whatever is stored. -/
def jobFault? (job : BulkJob) : Option String :=
  if blank job.bucket || blank job.key then some "bucket and key are required"
  else if hasDoubleDot job.key.toList then some "key must not contain '..'"
  else none

def postBulk (s : OrderSettings) (r : Request) : Work Response := do
  match readBody BulkJob r with
  | .error message => return .error 400 message
  | .ok job =>
    match jobFault? job with
    | some message => return .error 400 message
    | none =>
      match ← Depot.blobExists job.bucket job.key with
      | .error _ => return .error 503 "Object storage unavailable"
      | .ok false => return .error 400 s!"object {job.bucket}/{job.key} does not exist"
      | .ok true => queueJob s job

/-- The last part of a path from a client, if it can name a file. -/
def uploadName? (raw : String) : Option String :=
  let name := String.ofList (Blank.trim (raw.toList.reverse.takeWhile fun c => c != '/' && c != '\\').reverse)
  if name = "" ∨ name = "." ∨ name = ".." then none else some name

/-- The file in a body, or the answer that there is none. -/
def uploadedFile (s : OrderSettings) (boundary : List Char) (body : Bytes) : Except Response (String × Bytes) :=
  if s.maxUploadBytes < body.length then .error (.error 413 Multipart.Error.unreadable.message)
  else
    match Multipart.find (Utf8.encode boundary) "file" body with
    | .error e => .error (.error 400 e.message)
    | .ok none => .error (.error 400 "multipart field 'file' is required")
    | .ok (some part) =>
      match part.fileName.bind uploadName? with
      | none => .error (.error 400 "file needs a usable file name")
      | some name => if part.body.isEmpty then .error (.error 400 "uploaded file is empty") else .ok (name, part.body)

/-- The key of a file stored now. -/
def uploadKey (now : Instant) (id : Uuid) (name : String) : String :=
  s!"uploads/{Timestamp.stamp now}-{id.render}_{name}"

/-- Stores a file and queues it. -/
def storeUpload (s : OrderSettings) (bucket name : String) (body : Bytes) : Work Response := do
  let key := uploadKey (← get).supply.now (← Depot.nextUpload) name
  match ← Depot.storeBlob ⟨bucket, key, body⟩ with
  | .error _ => return .error 500 "Failed to store upload"
  | .ok () => queueJob s ⟨bucket, key⟩

def postUpload (s : OrderSettings) (r : Request) : Work Response := do
  match r.mediaType?.bind MediaType.boundary? with
  | none => return .error 400 "Invalid `boundary` for `multipart/form-data` request"
  | some boundary =>
    match s.uploadBucket with
    | none => return .error 500 "Uploads are not configured"
    | some bucket =>
      match uploadedFile s boundary r.body with
      | .error response => return response
      | .ok (name, body) => storeUpload s bucket name body

def routes (s : OrderSettings) : List (Route Work) :=
  [⟨"/orders", [("POST", postOrder s), ("GET", getOrders)]⟩, ⟨"/orders/bulk", [("POST", postBulk s)]⟩,
    ⟨"/orders/upload", [("POST", postUpload s)]⟩, healthRoute]

def respond (s : OrderSettings) (r : Request) : Work Response := Router.respond (routes s) r

end OrderService

end Fulfilment
