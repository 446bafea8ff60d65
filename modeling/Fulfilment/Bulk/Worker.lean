import Fulfilment.Bulk.Columns
import Fulfilment.Csv.Writer
import Fulfilment.Order.Intake

/-!
# Taking in a file of orders

Each row of a file becomes an order on hold and is announced. A row that cannot is set aside and never stops the
others; the rows set aside are stored as a file of their own. Stock is not touched: it is set aside when the
announcement is handled.

* `ingest`: takes in one file. It fails only if there is no file or its header will not do.
* `bulkWorker`: the handler of jobs.
-/

namespace Fulfilment

inductive RowError
  | invalid (error : ValidationError)
  | inventory (error : InventoryError)
  | persistence (failure : Failure)
  | publish (failure : Failure)

namespace RowError

def message : RowError → String
  | invalid e => e.message
  | inventory e => e.message
  | persistence f => "persist failed: " ++ f.line
  | publish f => "publish failed: " ++ f.line

end RowError

structure BulkReport where
  total : Nat
  accepted : Nat
  rejected : Nat
  /-- Where the rejected rows are stored. -/
  errorKey : Option String
  deriving DecidableEq, Repr

structure BulkSettings where
  createdTopic : String
  /-- Whether a row is refused whose article has no single record. -/
  verifyInventory : Bool
  /-- The size of the largest file that is taken in. -/
  maxBytes : Nat

/-- What follows the last slash. -/
def lastSegment (cs : List Char) : List Char := (cs.reverse.takeWhile (· != '/')).reverse

/-- The key of the file of rejected rows. -/
def sidecarKey (key : String) (unixSeconds : Int) : String :=
  "errors/" ++ String.ofList (lastSegment key.toList) ++ "-" ++ toString unixSeconds ++ ".csv"

/-- Looks up the record of a request, if that is asked for. -/
def verifyRow (s : BulkSettings) (r : OrderRequest) : Work (Except InventoryError Unit) := do
  if s.verifyInventory then
    match ← Depot.inventory.snapshot r.hubId r.skuId with
    | .error e => return .error e
    | .ok _ => return .ok ()
  else return .ok ()

/-- Stores and announces the order of a row. -/
def storeRow (s : BulkSettings) (r : OrderRequest) : Work (Except RowError Unit) := do
  match ← Depot.insert r.draft with
  | .error f => return .error (.persistence f)
  | .ok order =>
    match ← announce s.createdTopic order with
    | .error f => return .error (.publish f)
    | .ok () => return .ok ()

def ingestRow (s : BulkSettings) (c : Columns) (row : Row) : Work (Except RowError Unit) := do
  match c.parse row with
  | .error e => return .error (.invalid e)
  | .ok r =>
    match ← verifyRow s r with
    | .error e => return .error (.inventory e)
    | .ok () => storeRow s r

/-- Takes in rows, the first of them number `n`, and gives those set aside. -/
def ingestRows (s : BulkSettings) (c : Columns) : (n : Nat) → List Row → Work (List Row)
  | _, [] => return []
  | n, row :: rest => do
    match ← ingestRow s c row with
    | .ok () => ingestRows s c (n + 1) rest
    | .error e =>
      Depot.reject n e.message
      return row :: (← ingestRows s c (n + 1) rest)

/-- Stores the rows set aside, below the header of the file they are from. -/
def writeSidecar (job : BulkJob) (header : Row) (rows : List Row) : Work (Option String) := do
  if rows.isEmpty then return none
  else
    let key := sidecarKey job.key (← get).supply.now.unixSeconds
    match ← Depot.storeBlob ⟨job.bucket, key, Csv.write (header :: rows)⟩ with
    | .error _ => return none
    | .ok () => return some key

/-- Takes in the rows of a file that is at hand. -/
def ingestTable (s : BulkSettings) (job : BulkJob) (header : Row) (rows : List Row) :
    Work (Except Failure BulkReport) := do
  match Columns.ofHeader header with
  | .error f => return .error (f.context ("rejecting " ++ job.key))
  | .ok columns =>
    let rejected ← ingestRows s columns 1 rows
    let errorKey ← writeSidecar job header rejected
    return .ok
      { total := rows.length, accepted := rows.length - rejected.length, rejected := rejected.length, errorKey }

def ingest (s : BulkSettings) (job : BulkJob) : Work (Except Failure BulkReport) := do
  match ← Depot.getBlob job.bucket job.key s.maxBytes with
  | .error f => return .error (f.context s!"cannot fetch {job.bucket}/{job.key}")
  | .ok body => ingestTable s job (Csv.table body).1 (Csv.table body).2

def bulkWorker (s : BulkSettings) : Handler Work := fun message => do
  match (Json.Record.parse message.payload : Except Json.Fault BulkJob) with
  | .error fault => return .error ((Failure.ofMessage fault.message).context "undecodable bulk ingestion job")
  | .ok job =>
    match ← ingest s job with
    | .error f => return .error f
    | .ok _ => return .ok ()

end Fulfilment
