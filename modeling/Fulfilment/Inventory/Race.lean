import Fulfilment.Depot.Basic

/-!
# Reservations side by side

Reservations of one article that are made at once. None knows of the others: each looks up the record, and puts what
is left of the figure that it has seen at some later time, whatever was put in between.

* `Inventory.check`, `Inventory.put`: the two halves of a reservation (`Inventory.reserve_eq`).
* `Race.step?`: one half of one of the reservations.
* `Race.run?`: a run in which the halves follow one another in any order.
-/

namespace Fulfilment

/-- What the first half of a reservation comes to: it is over, or a figure is to be put. -/
inductive Checked
  | over (outcome : Except InventoryError ReserveOutcome)
  | putting (before after : Int64)

namespace Inventory

variable {m : Type → Type} [Monad m]

def check (i : Inventory m) (hubId skuId : String) (quantity : Int64) (rule : AvailabilityRule) : m Checked := do
  match ← i.snapshot hubId skuId with
  | .error e => return .over (.error e)
  | .ok s =>
    match s.after? rule quantity with
    | none => return .over (.ok (.insufficient (s.available rule)))
    | some after => return .putting s.onHand after

def put (i : Inventory m) (tenantId hubId skuId : String) (before after : Int64) :
    m (Except InventoryError ReserveOutcome) := do
  match ← i.setOnHand { tenantId, hubId, skuId, quantity := after } with
  | .error e => return .error e
  | .ok () => return .ok (.reserved before after)

/-- A reservation on its own is its two halves, one right after the other. -/
theorem reserve_eq [LawfulMonad m] (i : Inventory m) (tenantId hubId skuId : String) (quantity : Int64)
    (rule : AvailabilityRule) :
    i.reserve tenantId hubId skuId quantity rule =
      i.check hubId skuId quantity rule >>= fun
        | .over outcome => pure outcome
        | .putting before after => i.put tenantId hubId skuId before after := by
  unfold reserve check
  rw [bind_assoc]
  refine bind_congr fun found => ?_
  cases found with
  | error e => rw [pure_bind]
  | ok s =>
    dsimp only
    cases s.after? rule quantity with
    | none => rw [pure_bind]
    | some after =>
      rw [pure_bind]
      rfl

end Inventory

structure Reservation where
  tenantId : String
  quantity : Int64
  rule : AvailabilityRule
  deriving DecidableEq

/-- The reservations of one article at a hub, by number. -/
structure Race.Plan where
  hubId : String
  skuId : String
  reservations : List Reservation
  deriving DecidableEq

namespace Race.Plan

def quantity (p : Plan) (n : Nat) : Int := p.reservations[n]?.elim 0 (·.quantity.toInt)

/-- How much some of the reservations take together. -/
def taken (p : Plan) : (counted : List Nat) → Int
  | [] => 0
  | n :: rest => p.quantity n + p.taken rest

end Race.Plan

/-- Reservations under way: the depot, and how far each of them is. -/
structure Race where
  depot : Depot
  /-- What the first half of a reservation came to, once it is made, and in the end how the reservation fared. -/
  reached : Nat → Option Checked
  /-- The reservations whose figure was put, in this order. -/
  puts : List Nat

namespace Race

/-- One half of a reservation. -/
inductive Event
  | check (n : Nat)
  | put (n : Nat)
  deriving DecidableEq, Repr

def start (d : Depot) : Race := ⟨d, fun _ => none, []⟩

/-- The reservation `n` has got somewhere. -/
def reaches (s : Race) (n : Nat) (c : Checked) : Nat → Option Checked :=
  fun k => if k = n then some c else s.reached k

def check (p : Plan) (s : Race) (n : Nat) (r : Reservation) : Race :=
  let (c, d) := Depot.inventory.check p.hubId p.skuId r.quantity r.rule s.depot
  { s with depot := d, reached := s.reaches n c }

def put (p : Plan) (s : Race) (n : Nat) (r : Reservation) (before after : Int64) : Race :=
  let (outcome, d) := Depot.inventory.put r.tenantId p.hubId p.skuId before after s.depot
  { depot := d
    reached := s.reaches n (.over outcome)
    puts := if outcome.isOk then s.puts ++ [n] else s.puts }

/-- The race after one half of a reservation, if that is its turn. -/
def step? (p : Plan) (s : Race) : Event → Option Race
  | .check n =>
    match p.reservations[n]?, s.reached n with
    | some r, none => some (s.check p n r)
    | _, _ => none
  | .put n =>
    match p.reservations[n]?, s.reached n with
    | some r, some (.putting before after) => some (s.put p n r before after)
    | _, _ => none

def run? (p : Plan) (d : Depot) (events : List Event) : Option Race := events.foldlM (step? p) (start d)

end Race

end Fulfilment
