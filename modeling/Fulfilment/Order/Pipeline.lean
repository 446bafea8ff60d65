import Fulfilment.Order.Api

/-!
# The order pipeline

Everything that can happen to a depot: orders come in singly, in files and over the wire, announcements and jobs are
handled, and parts of the depot fail and recover. A run is a list of commands.

* `Command.perform`: one command, with its result.
* `Depot.run`: a run.
-/

namespace Fulfilment

/-- A part of the depot that fails, or stops failing. -/
inductive Switch
  | lookups (on : Bool)
  | updates (on : Bool)
  | inserts (on : Bool)
  | listing (on : Bool)
  | puts (on : Bool)
  | checks (on : Bool)
  | nextLookups (n : Nat)
  | nextUpdates (n : Nat)
  | nextInserts (n : Nat)
  | nextMarks (n : Nat)
  | nextPublishing (n : Nat)
  | topics (names : List String)
  deriving DecidableEq, Repr

namespace Switch

def apply (d : Depot) : Switch → Depot
  | lookups on => { d with lookups := { d.lookups with lasting := on } }
  | updates on => { d with updates := { d.updates with lasting := on } }
  | inserts on => { d with inserts := { d.inserts with lasting := on } }
  | listing on => { d with listing := { d.listing with lasting := on } }
  | puts on => { d with puts := { d.puts with lasting := on } }
  | checks on => { d with checks := { d.checks with lasting := on } }
  | nextLookups n => { d with lookups := { d.lookups with next := n } }
  | nextUpdates n => { d with updates := { d.updates with next := n } }
  | nextInserts n => { d with inserts := { d.inserts with next := n } }
  | nextMarks n => { d with marks := { d.marks with next := n } }
  | nextPublishing n => { d with bus := { d.bus with outage := { d.bus.outage with next := n } } }
  | topics names => { d with bus := { d.bus with downTopics := names } }

end Switch

inductive Command
  | create (request : OrderRequest)
  | ingest (job : BulkJob)
  | finalize (event : OrderCreated)
  /-- Hands a message to the finalizer, with its attempts. -/
  | finalizerMessage (message : Message)
  /-- Hands a message to the bulk worker, with its attempts. -/
  | bulkMessage (message : Message)
  /-- Hands all published messages to those who wait for them. -/
  | pump
  | request (request : Http.Request)
  | list (filter : OrderFilter)
  | mark (id : Uuid)
  | getBlob (bucket key : String) (limit : Nat)
  | set (switches : List Switch)

/-- What became of a message that was taken off the bus. -/
structure Delivery where
  message : Message
  result : Except Failure Unit

inductive Outcome
  | created (result : Except IntakeError Uuid)
  | ingested (result : Except Failure BulkReport)
  | finalized (result : Except Failure Finalization)
  | handled (result : Except Failure Unit)
  | pumped (deliveries : List Delivery)
  | responded (response : Http.Response)
  | listed (result : Except Failure (List Order))
  | marked (result : Except Failure Bool)
  | blob (result : Except Failure Bytes)
  | done

namespace OrderService

def retriedFinalizer (s : OrderSettings) : Handler Work := Handler.retried s.retryAttempts (finalizer s.updatedTopic)

def retriedBulkWorker (s : OrderSettings) : Handler Work := Handler.retried s.retryAttempts (bulkWorker s.bulk)

/-- Hands messages to those who wait for their topics, and drops the others. -/
def deliver (s : OrderSettings) : List Message → Work (List Delivery)
  | [] => return []
  | message :: rest => do
    if message.topic = s.createdTopic then
      let result ← retriedFinalizer s message
      return ⟨message, result⟩ :: (← deliver s rest)
    else if message.topic = s.bulkTopic then
      let result ← retriedBulkWorker s message
      return ⟨message, result⟩ :: (← deliver s rest)
    else deliver s rest

end OrderService

open OrderService in
def Command.perform (s : OrderSettings) : Command → Work Outcome
  | .create r => return .created (← createOrder s.createdTopic r)
  | .ingest job => return .ingested (← Fulfilment.ingest s.bulk job)
  | .finalize event => return .finalized (← Fulfilment.finalize s.updatedTopic event)
  | .finalizerMessage message => return .handled (← retriedFinalizer s message)
  | .bulkMessage message => return .handled (← retriedBulkWorker s message)
  | .pump => do return .pumped (← deliver s (← Depot.takePublished))
  | .request r => return .responded (← respond s r)
  | .list filter => return .listed (← Depot.listOrders filter)
  | .mark id => return .marked (← Depot.markNewOrder id)
  | .getBlob bucket key limit => return .blob (← Depot.getBlob bucket key limit)
  | .set switches => do
    modify fun d => switches.foldl Switch.apply d
    return .done

/-- The depot after a run. -/
def Depot.run (s : OrderSettings) (d : Depot) (commands : List Command) : Depot :=
  commands.foldl (fun d c => (c.perform s d).2) d

end Fulfilment
