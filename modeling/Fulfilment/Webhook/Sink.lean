import Fulfilment.Webhook.Relay

/-!
# Keeping failures

Dead letters are taken off the bus and recorded, each as often as it comes.

* `failureSink`: the handler of dead letters. What is none, or cannot be recorded, is a failure.
-/

namespace Fulfilment

open Json

def failureSink : Handler Relaying := fun message => do
  match (Record.parse message.payload : Except Fault DeadLetter) with
  | .error fault => return .error ((Failure.ofMessage fault.message).context "malformed webhook failure record")
  | .ok letter =>
    match ← Relay.record letter with
    | .error f => return .error f
    | .ok _ => return .ok ()

end Fulfilment
