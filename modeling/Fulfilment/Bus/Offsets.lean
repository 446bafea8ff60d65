import Fulfilment.Text.Numeral

/-!
# Offsets

Messages of a partition are handled side by side, but a position may be committed only when every message before it is
done. A lane keeps the offsets in flight in increasing order, the highest offset done, and the mark: the position
committed last, or the offset at which the lane was begun. A tracker keeps a lane for each partition of each topic.

Offsets are 64-bit integers, and so are positions. All that is computed of them is the position behind the highest
done, and behind the last 64-bit integer there is none: checked arithmetic panics there. Where the sum wraps around
instead, it is ahead of no mark, so the lane becomes the same and nothing is handed out either.

* `Lane.begin`: a begin below the mark starts the lane over from there.
* `Lane.complete`: the mark moves to the lowest offset in flight, or behind the highest that is done.
-/

namespace Fulfilment

/-- What breaks a call off. -/
inductive Panic
  /-- A sum is no 64-bit integer. -/
  | overflow
  deriving DecidableEq, Repr

def Panic.message : Panic → String
  | .overflow => "attempt to add with overflow"

structure Lane where
  /-- Offsets of messages that are being handled, in increasing order. -/
  inFlight : List Int
  highestDone : Option Int
  mark : Option Int
  deriving DecidableEq, Repr

namespace Lane

def empty : Lane := ⟨[], none, none⟩

/-- Inserts into a list in increasing order, once. -/
def insertOffset (o : Int) : List Int → List Int
  | [] => [o]
  | x :: xs => if o < x then o :: x :: xs else if o = x then x :: xs else x :: insertOffset o xs

/-- The message at `o` is about to be handled. -/
def begin (l : Lane) (o : Int) : Lane :=
  let restarts := match l.mark with
    | none => true
    | some m => o < m
  if restarts then ⟨insertOffset o l.inFlight, none, some o⟩ else { l with inFlight := insertOffset o l.inFlight }

/-- The position below which everything is done. Nothing when it is behind the last 64-bit integer. -/
def position? (inFlight : List Int) (highestDone : Int) : Option Int :=
  match inFlight with
  | pending :: _ => some pending
  | [] => if highestDone + 1 ≤ max64 then some (highestDone + 1) else none

/-- What completing an offset comes to. -/
inductive Answer
  /-- The new mark is handed out, if it moved. -/
  | handed (position : Option Int)
  | panicked (panic : Panic)
  deriving DecidableEq, Repr

/-- The position that is handed out. -/
def Answer.handed? : Answer → Option Int
  | .handed position => position
  | .panicked _ => none

/-- The highest offset done, once `o` is. -/
def top (l : Lane) (o : Int) : Int := l.highestDone.elim o (max · o)

/-- The message at `o` is done. Gives the new mark if it moved. -/
def complete (l : Lane) (o : Int) : Lane × Answer :=
  if o ∈ l.inFlight then
    let inFlight := l.inFlight.erase o
    let done := some (l.top o)
    match position? inFlight (l.top o) with
    | none => (⟨inFlight, done, l.mark⟩, .panicked .overflow)
    | some p =>
      if l.mark.all (· < p) then (⟨inFlight, done, some p⟩, .handed (some p))
      else (⟨inFlight, done, l.mark⟩, .handed none)
  else (l, .handed none)

end Lane

/-- The lanes of partitions of topics. -/
structure Tracker where
  lanes : List ((String × Int) × Lane)

namespace Tracker

def empty : Tracker := ⟨[]⟩

/-- The lane of a partition, empty where nothing has begun. -/
def lane (t : Tracker) (topic : String) (partition : Int) : Lane :=
  (t.lanes.lookup (topic, partition)).getD .empty

/-- Puts the lane of the partition `k`. -/
def putLane (k : String × Int) (l : Lane) : List ((String × Int) × Lane) → List ((String × Int) × Lane)
  | [] => [(k, l)]
  | (k', l') :: rest => if k = k' then (k, l) :: rest else (k', l') :: putLane k l rest

def put (t : Tracker) (topic : String) (partition : Int) (l : Lane) : Tracker :=
  ⟨putLane (topic, partition) l t.lanes⟩

theorem lookup_putLane_self (k : String × Int) (l : Lane) (ls : List ((String × Int) × Lane)) :
    (putLane k l ls).lookup k = some l := by
  induction ls with
  | nil => simp [putLane]
  | cons x rest ih =>
    obtain ⟨k', l'⟩ := x
    unfold putLane
    split
    · exact List.lookup_cons_self
    · rename_i h
      simp only [List.lookup_cons, beq_eq_false_iff_ne.2 h, ih]

theorem lookup_putLane_ne {j k : String × Int} (h : j ≠ k) (l : Lane) (ls : List ((String × Int) × Lane)) :
    (putLane k l ls).lookup j = ls.lookup j := by
  induction ls with
  | nil => simp [putLane, List.lookup_cons, beq_eq_false_iff_ne.2 h]
  | cons x rest ih =>
    obtain ⟨k', l'⟩ := x
    unfold putLane
    split
    · rename_i hk
      subst hk
      simp [List.lookup_cons, beq_eq_false_iff_ne.2 h]
    · simp only [List.lookup_cons, ih]

theorem lane_put_self (t : Tracker) (topic : String) (partition : Int) (l : Lane) :
    (t.put topic partition l).lane topic partition = l := by
  simp [put, lane, lookup_putLane_self]

theorem lane_put_ne (t : Tracker) {topic topic' : String} {partition partition' : Int} (l : Lane)
    (h : (topic', partition') ≠ (topic, partition)) :
    (t.put topic partition l).lane topic' partition' = t.lane topic' partition' := by
  simp [put, lane, lookup_putLane_ne h]

/-- The message at `o` of the partition is about to be handled. -/
def begin (t : Tracker) (topic : String) (partition o : Int) : Tracker :=
  t.put topic partition ((t.lane topic partition).begin o)

/-- The message at `o` of the partition is done. Gives the position to commit, if that moved. -/
def complete (t : Tracker) (topic : String) (partition o : Int) : Tracker × Lane.Answer :=
  let r := (t.lane topic partition).complete o
  (t.put topic partition r.1, r.2)

end Tracker

end Fulfilment
