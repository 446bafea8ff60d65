import Fulfilment.Bus.Consumer

/-!
# Rehearsals

A handler and a committer that follow a script and keep what they were called with.
-/

namespace Fulfilment

structure Rehearsal where
  /-- How the handler fares, call after call; when that is used up it succeeds. -/
  script : List (Except Failure Unit)
  /-- How many of the next commits fail. -/
  failingCommits : Nat

namespace Rehearsal

inductive Call
  | handled (message : Message)
  | committed (topic : String) (partition next : Int) (succeeded : Bool)
  deriving DecidableEq, Repr

/-- What is left of a script, and the calls so far. -/
structure Stage where
  plan : Rehearsal
  calls : List Call

def handler : Handler (StateM Stage) := fun message s =>
  (s.plan.script.headD (.ok ()),
    { plan := { s.plan with script := s.plan.script.tail }, calls := s.calls ++ [.handled message] })

def commit : Consumer.Committer (StateM Stage) := fun topic partition next s =>
  if s.plan.failingCommits = 0 then
    (.ok (), { s with calls := s.calls ++ [.committed topic partition next true] })
  else
    (.error (.ofMessage "commit failed"),
      { plan := { s.plan with failingCommits := s.plan.failingCommits - 1 },
        calls := s.calls ++ [.committed topic partition next false] })

end Rehearsal

end Fulfilment
