import Fulfilment.Bus.Rehearsal

/-!
# The broker

A broker keeps the messages that were published on a topic, in order, as one partition.

* `Broker.publish`: adds a message, if the broker can be reached.
* `Broker.rehearse`: all its messages, consumed from the first one on.
-/

namespace Fulfilment

structure Broker where
  reachable : Bool
  messages : List Message
  deriving DecidableEq, Repr

namespace Broker

def publish (b : Broker) (message : Message) : Except Failure Broker :=
  if b.reachable then .ok { b with messages := b.messages ++ [message] }
  else
    .error (.ofMessage
      s!"Failed to publish to {message.topic}: Message production error: MessageTimedOut (Local: Message timed out)")

def publishAll (b : Broker) (messages : List Message) : Except Failure Broker := messages.foldlM publish b

/-- The stage after a scripted handler has consumed all messages. -/
def rehearse (b : Broker) (handler : Handler (StateM Rehearsal.Stage)) (stage : Rehearsal.Stage) : Rehearsal.Stage :=
  (((Consumer.consume handler Rehearsal.commit 0 b.messages 0).run Tracker.empty).run stage).2

end Broker

end Fulfilment
