import Fulfilment.Bus.Message
import Fulfilment.Bus.Offsets

/-!
# Consuming

A message that was begun is handed to the handler, then counts as done whether or not it was handled well, and the
position that this allows is committed. A panic of the tracker breaks all of it off.

* `Consumer.handle`: one message. A commit that fails is not made up for.
* `Consumer.consume`: a whole partition, message after message.
-/

namespace Fulfilment

namespace Consumer

variable {m : Type → Type} [Monad m]

/-- What takes the positions to resume from. -/
abbrev Committer (m : Type → Type) := (topic : String) → (partition next : Int) → m (Except Failure Unit)

def handle (handler : Handler m) (commit : Committer m) (message : Message) (partition offset : Int) :
    ExceptT Panic (StateT Tracker m) Unit := do
  let _ ← handler message
  match ← modifyGet fun t => let r := t.complete message.topic partition offset; (r.2, r.1) with
  | .handed (some next) =>
    let _ ← commit message.topic partition next
  | .handed none => pure ()
  | .panicked panic => throw panic

/-- Receives and handles the messages of a partition from `offset` on. -/
def consume (handler : Handler m) (commit : Committer m) (partition : Int) :
    (messages : List Message) → (offset : Int) → ExceptT Panic (StateT Tracker m) Unit
  | [], _ => pure ()
  | message :: rest, offset => do
    modify fun t => t.begin message.topic partition offset
    handle handler commit message partition offset
    consume handler commit partition rest (offset + 1)

end Consumer

end Fulfilment
