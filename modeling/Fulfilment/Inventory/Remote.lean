import Fulfilment.Http.Exchange
import Fulfilment.Inventory.Reservation

/-!
# Stock kept by another service

The records of an article at a hub are got from the service, and a figure on hand is put there.

* `Inventory.remote`: the stock that a service keeps.
-/

namespace Fulfilment

open Json

namespace Inventory

variable {m : Type → Type} [Monad m]

/-- Where a service keeps its stock. Slashes at the end of its address do not count. -/
def stockAddress (base : String) : String :=
  String.ofList (base.toList.reverse.dropWhile (· == '/')).reverse ++ "/inventory"

/-- What every client says that it takes. -/
def accepted : String × Bytes := ("accept", Utf8.ofString "*/*")

/-- The request for the records of an article at a hub. -/
def lookupRequest (url : Url) (hubId skuId : String) : Http.Outgoing where
  method := "GET"
  url := url.withEntries [("hub_id", hubId), ("sku_ids", skuId)]
  headers := [accepted]
  body := []

def updateRequest (url : Url) (u : StockUpdate) : Http.Outgoing where
  method := "PUT"
  url := url
  headers := [accepted, ("content-type", Utf8.ofString "application/json")]
  body := Record.encode u

/-- The records in the body of an answer, if all of it came and can be decoded. -/
def readRecords (body : Option Bytes) : Except InventoryError (List Snapshot) :=
  match body.map (Record.codec Snapshot).list.parse with
  | some (.ok records) => .ok records
  | some (.error _) | none => .error (.lookup "undecodable inventory response: error decoding response body")

/-- Makes a request to the service at `base`. -/
def ask (send : Http.Transport m) (base : String) (request : Url → Http.Outgoing) :
    m (Except Http.ExchangeError (Option Bytes)) :=
  match Http.address? (stockAddress base) with
  | .error e => return .error e
  | .ok url => Http.exchange send (request url)

def remote (send : Http.Transport m) (base : String) : Inventory m where
  lookup hubId skuId := do
    match ← ask send base (lookupRequest · hubId skuId) with
    | .error e => return .error (.lookup e.message)
    | .ok body => return readRecords body
  setOnHand u := do
    match ← ask send base (updateRequest · u) with
    | .error e => return .error (.update e.message)
    | .ok _ => return .ok ()

end Inventory

end Fulfilment
