import Fulfilment.Bus.Message
import Fulfilment.Outage

/-!
# The bus

Messages are published on topics and wait there until they are taken off. Publishing may fail, on all topics or on
some.

* `Bus.publish`: a message that could not be published leaves nothing behind.
-/

namespace Fulfilment

structure Bus where
  /-- Messages that were published and not yet taken off. -/
  published : List Message
  downTopics : List String
  outage : Outage

namespace Bus

def empty : Bus := ⟨[], [], .none⟩

/-- Whether a message on `topic` cannot be published now. -/
def refuses (b : Bus) (topic : String) : Bool := b.outage.strikes || b.downTopics.contains topic

def publish (b : Bus) (message : Message) : Except Failure Unit × Bus :=
  let b' := { b with outage := b.outage.worn }
  if b.refuses message.topic then (.error (.ofMessage ("broker unavailable for " ++ message.topic)), b')
  else (.ok (), { b' with published := b.published ++ [message] })

/-- The bus when all messages have been taken off. -/
def emptied (b : Bus) : Bus := { b with published := [] }

end Bus

end Fulfilment
