import Fulfilment.Bus.Consumer

/-!
# Handling side by side

The messages of a partition are received in order, some of them at a time, and are done in any order. How a message
fared and whether a commit succeeded changes nothing in what follows.

* `Flow.step?`: what may happen next. A message is received only while there is room for it. A panic of the tracker
  ends the flow, and is no event of it.
* `Flow.run?`: a run from the start.
-/

namespace Fulfilment

/-- Messages at the offsets below `total` of a partition, handled up to `concurrency` at a time, and at least one. -/
structure Flow.Plan where
  topic : String
  partition : Int
  total : Nat
  concurrency : Nat
  deriving DecidableEq, Repr

structure Flow where
  /-- How many messages have been received, and handed to the handler in this order. -/
  received : Nat
  running : List Nat
  /-- What is done, and whether it was handled well. -/
  done : List (Nat × Bool)
  tracker : Tracker
  /-- The positions passed to the committer, and whether it took them. -/
  positions : List (Int × Bool)

namespace Flow

inductive Event
  | receive
  /-- The handler is done with a message; then the commit, if there is one, succeeds or not. -/
  | finish (offset : Nat) (succeeded committed : Bool)
  deriving DecidableEq, Repr

def start : Flow := ⟨0, [], [], .empty, []⟩

def receive (p : Plan) (f : Flow) : Flow :=
  { f with
    received := f.received + 1
    running := f.running ++ [f.received]
    tracker := f.tracker.begin p.topic p.partition f.received }

def finish (p : Plan) (f : Flow) (offset : Nat) (succeeded committed : Bool) : Flow :=
  let r := f.tracker.complete p.topic p.partition offset
  { f with
    running := f.running.erase offset
    done := f.done ++ [(offset, succeeded)]
    tracker := r.1
    positions := f.positions ++ r.2.handed?.toList.map (·, committed) }

/-- The flow after an event, if that may happen now. -/
def step? (p : Plan) (f : Flow) : Event → Option Flow
  | .receive =>
    if f.received < p.total ∧ f.running.length < max 1 p.concurrency then some (f.receive p) else none
  | .finish offset succeeded committed =>
    if offset ∈ f.running ∧ (f.tracker.complete p.topic p.partition offset).2 ≠ .panicked .overflow then
      some (f.finish p offset succeeded committed)
    else none

def run? (p : Plan) (events : List Event) : Option Flow := events.foldlM (step? p) start

end Flow

end Fulfilment
