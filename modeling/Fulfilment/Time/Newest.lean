import Fulfilment.Time.Instant

/-!
# The newest first

Items by their time, the latest first; those of one time keep their order.
-/

namespace Fulfilment

def newestFirst {α : Type} (time : α → Instant) (items : List α) : List α :=
  items.mergeSort fun a b => decide (time b ≤ time a)

end Fulfilment
