import Fulfilment.Bus.Offsets

/-!
# Histories of offsets

What is asked of a tracker, call after call and in any order, and what it hands out. Of what happens to the lane of a
partition, all else is said from outside the lane: which offsets are pending, and where the position stands.

* `Tracker.play`: calls on a fresh tracker.
* `Lane.Pending`, `Lane.Settled`: whether an offset was completed since it was begun last.
* `Lane.standing`: the position handed out last, unless a begin before it has taken it back.
-/

namespace Fulfilment

namespace Lane

/-- What happens to a lane: an offset is begun, or completed with what this comes to. -/
inductive Event
  | begun (o : Int)
  | completed (o : Int) (answer : Answer)
  deriving DecidableEq, Repr

/-- The offset was begun, and not completed since. -/
def Pending (h : List Event) (o : Int) : Prop :=
  ∃ earlier later, h = earlier ++ .begun o :: later ∧ ∀ answer, .completed o answer ∉ later

/-- The offset was completed after it was begun for the last time. -/
def Settled (h : List Event) (o : Int) : Prop :=
  ∃ earlier later, h = earlier ++ .begun o :: later ∧ .begun o ∉ later ∧ ∃ answer, .completed o answer ∈ later

/-- Where the position stands after an event: a begin before it takes it back. -/
def Event.moves (position : Option Int) : Event → Option Int
  | .begun o => some (position.elim o (min · o))
  | .completed _ answer => answer.handed?.or position

/-- Where the position stands: at the first offset begun, then at what was handed out or taken back to last. -/
def standing (h : List Event) : Option Int := h.foldl Event.moves none

/-- A begin of the offset takes the position back. -/
def Rewinds (h : List Event) (o : Int) : Prop := ∃ p, standing h = some p ∧ o < p

/-- None of what comes later takes the position back. -/
def Steady (h later : List Event) : Prop :=
  ∀ between o rest, later = between ++ .begun o :: rest → ¬ Rewinds (h ++ between) o

end Lane

namespace Tracker

inductive Call
  | begin (topic : String) (partition o : Int)
  | complete (topic : String) (partition o : Int)
  deriving DecidableEq, Repr

/-- A tracker, and what has happened to its lanes. -/
structure Played where
  tracker : Tracker
  events : List ((String × Int) × Lane.Event)

namespace Played

def call (s : Played) : Call → Played
  | .begin topic partition o =>
    ⟨s.tracker.begin topic partition o, s.events ++ [((topic, partition), .begun o)]⟩
  | .complete topic partition o =>
    let r := s.tracker.complete topic partition o
    ⟨r.1, s.events ++ [((topic, partition), .completed o r.2)]⟩

/-- What has happened to the lane of a partition. -/
def history (s : Played) (topic : String) (partition : Int) : List Lane.Event :=
  (s.events.filter (·.1 = (topic, partition))).map (·.2)

end Played

/-- Calls on a fresh tracker, one after the other. -/
def play (calls : List Call) : Played := calls.foldl Played.call ⟨.empty, []⟩

end Tracker

end Fulfilment
