/-!
# Failures

What went wrong, with what made it go wrong, the nearest cause first.
-/

namespace Fulfilment

structure Failure where
  message : String
  causes : List String
  deriving DecidableEq, Repr

namespace Failure

def ofMessage (message : String) : Failure := ⟨message, []⟩

/-- The failure as the cause of another. -/
def context (f : Failure) (message : String) : Failure := ⟨message, f.message :: f.causes⟩

/-- All messages, the outermost first. -/
def chain (f : Failure) : List String := f.message :: f.causes

/-- All messages in one line. -/
def line (f : Failure) : String := ": ".intercalate f.chain

theorem chain_context (f : Failure) (message : String) : (f.context message).chain = message :: f.chain := rfl

end Failure

end Fulfilment
