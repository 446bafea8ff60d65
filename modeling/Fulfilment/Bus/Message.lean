import Fulfilment.Failure
import Fulfilment.Text.Utf8

/-!
# Messages

A message of the bus, and what handles messages: a handler does its work in a monad and may fail. `Handler.retried`
gives a handler a number of attempts for each message.

* `Handler.retried`: at least one attempt is made, and the last failure is the one that is told.
-/

namespace Fulfilment

structure Message where
  topic : String
  key : Option String
  payload : Bytes
  deriving DecidableEq, Repr

abbrev Handler (m : Type → Type) := Message → m (Except Failure Unit)

namespace Handler

variable {m : Type → Type} [Monad m]

/-- Handles the message until that succeeds, after the first attempt `left` times more. -/
def attempts (h : Handler m) (message : Message) (gaveUp : String) : (left : Nat) → m (Except Failure Unit)
  | 0 => do
    match ← h message with
    | .ok () => return .ok ()
    | .error e => return .error (e.context gaveUp)
  | left + 1 => do
    match ← h message with
    | .ok () => return .ok ()
    | .error _ => attempts h message gaveUp left

/-- Handles each message with up to `n` attempts, and with one where `n` is zero. -/
def retried (n : Nat) (h : Handler m) : Handler m := fun message =>
  attempts h message s!"giving up on {message.topic} message after {max 1 n} attempts" (n - 1)

/-- One retrying handler in another, the first number innermost. -/
def retriedBy (ns : List Nat) (h : Handler m) : Handler m := ns.foldl (fun h n => retried n h) h

end Handler

end Fulfilment
