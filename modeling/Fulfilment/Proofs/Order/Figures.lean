import Fulfilment.Proofs.Order.Footprint

/-!
# Figures put for an order

A figure that is put for an order is that of its one record less its quantity (`Finalizing.putFor`). The quantity of
an announcement is taken as it comes: orders that are taken in have a positive one, but an announcement with one below
zero is dealt with too, and then every figure put is higher than the one that was read. So on hand of a record rises
by all attempts at an announcement just when the quantity is below zero, the record is that of the order, and a figure
was put (`retried_finalizer_figures`).
-/

namespace Fulfilment

open Depot (Booked DrawnTimes)

/-- The figure put is that of the one record of the order less its quantity. It is higher than what was read just when
the quantity is below zero. -/
structure PutFor (e : OrderCreated) (d : Depot) (u : StockUpdate) (s : Snapshot) : Prop where
  record : d.records e.hubId e.skuId = [s]
  article : u.hubId = e.hubId ∧ u.skuId = e.skuId
  figure : u.quantity.toInt = s.onHand.toInt - e.quantity.toInt
  raised_iff : s.onHand.toInt < u.quantity.toInt ↔ e.quantity.toInt < 0

section

variable {topic : String} {e : OrderCreated} {m : Message} {d d' : Depot} {cs : List Call}

theorem Finalizing.putFor {r : Except Failure Finalization} (h : Finalizing topic e d r cs) {u : StockUpdate}
    {put : Bool} (hc : .setOnHand u put ∈ cs) : ∃ s, PutFor e d u s := by
  obtain ⟨s, left, covered, rfl⟩ := h.covered hc
  obtain ⟨hleft, -, -⟩ := Snapshot.toInt_of_after? covered.enough
  rw [Int32.toInt_toInt64] at hleft
  refine ⟨s, covered.record, ⟨rfl, rfl⟩, hleft, ?_⟩
  dsimp only
  omega

/-- What an attempt at an announcement has put, it has put for its order. -/
theorem finalizer_putFor {r : Except Failure Unit} (hp : Json.Record.parse m.payload = .ok e)
    (run : finalizer topic m d = (r, d')) (hcs : d'.calls = d.calls ++ cs) {u : StockUpdate} {put : Bool}
    (hc : .setOnHand u put ∈ cs) : ∃ s, PutFor e d u s := by
  rcases finalizer_cases topic d m with ⟨fault, hp', -⟩ | ⟨e', r', d₁, cs', hp', -, fared, hb, hr⟩
  · cases hp.symm.trans hp'
  · cases hp.symm.trans hp'
    cases run.symm.trans hr
    have same : cs = cs' := List.append_cancel_left (hcs.symm.trans hb.calls)
    exact fared.putFor (same ▸ hc)

end

/-- What is on hand of a record rises by drawing from stock just when the record is drawn from, and what is drawn is
below zero. -/
theorem Depot.DrawnTimes.raised_iff {hubId skuId : String} {amount : Int} {k : Nat} {stock stock' : List Snapshot}
    (h : DrawnTimes hubId skuId amount k stock stock') {i : Nat} {s : Snapshot} (hi : stock[i]? = some s) :
    ∃ left, stock'[i]? = some { s with onHand := left } ∧
      (s.onHand.toInt < left.toInt ↔ s.isOf hubId skuId = true ∧ 0 < k ∧ amount < 0) := by
  obtain ⟨left, hi', hleft⟩ := h.getElem? hi
  refine ⟨left, hi', ?_⟩
  rw [hleft]
  cases s.isOf hubId skuId with
  | false => simp
  | true =>
    simp only [if_true, true_and]
    by_cases hk : 0 < k
    · by_cases ha : amount < 0
      · have : k * amount < 0 := Int.mul_neg_of_pos_of_neg (by omega) ha
        omega
      · have : 0 ≤ k * amount := Int.mul_nonneg (by omega) (by omega)
        omega
    · obtain rfl : k = 0 := by omega
      simp

/-- All attempts at an announcement put figures that are what they read less its quantity, and raise what is on hand
of a record only if it is that of the order, and its quantity is below zero. -/
theorem retried_finalizer_figures {m : Message} {e : OrderCreated} (topic : String) (n : Nat) (d : Depot)
    (hp : Json.Record.parse m.payload = .ok e) :
    ∃ xs k j, Footprints topic m e d xs k j (Handler.retried n (finalizer topic) m d).2 ∧
      (∀ x ∈ xs, ∀ u put, .setOnHand u put ∈ x.2 → ∃ s, PutFor e x.1.before u s) ∧
      ∀ (i : Nat) s, d.stock[i]? = some s →
        ∃ left, (Handler.retried n (finalizer topic) m d).2.stock[i]? = some { s with onHand := left } ∧
          (s.onHand.toInt < left.toInt ↔ s.isOf e.hubId e.skuId = true ∧ 0 < k ∧ e.quantity.toInt < 0) := by
  obtain ⟨xs, k, j, -, -, hxs, -⟩ := retried_finalizer_footprint topic n d hp
  refine ⟨xs, k, j, hxs, fun x hx u put hc => ?_, fun i s hi => hxs.all.stock.raised_iff hi⟩
  obtain ⟨k', -, j', -, footprint⟩ := hxs.each x hx
  exact finalizer_putFor hp (hxs.attempted.run x.1 (List.mem_map_of_mem hx)) footprint.booked.calls hc

/-- The announcement of an order of five pieces less than none. -/
def announcementBelowZero : Message where
  topic := Topic.orderCreated
  key := some orderOfTwo.id.render
  payload := Json.Record.encode { orderOfTwo.createdEvent with quantity := -5 }

/-- An order of an article of which there is nothing. -/
def depotOfNone : Depot :=
  { Depot.opened ⟨mayDay, fun _ => (orderOfTwo.id, mayDay), fun _ => orderOfTwo.id⟩ with
    stock := [⟨"h1", "k1", 0, 0, none⟩]
    orders := [orderOfTwo] }

theorem retried_finalizer_figures_below_zero :
    Json.Record.parse announcementBelowZero.payload = .ok { orderOfTwo.createdEvent with quantity := -5 } ∧
      depotOfNone.stock.map (·.onHand) = [0] ∧
      (Handler.retried 3 (finalizer Topic.orderUpdated) announcementBelowZero depotOfNone).2.stock.map (·.onHand) =
        [5] ∧
      ∃ xs k j, Footprints Topic.orderUpdated announcementBelowZero { orderOfTwo.createdEvent with quantity := -5 }
        depotOfNone xs k j
          (Handler.retried 3 (finalizer Topic.orderUpdated) announcementBelowZero depotOfNone).2 := by
  have hp : Json.Record.parse announcementBelowZero.payload = .ok { orderOfTwo.createdEvent with quantity := -5 } :=
    Program.eq_ok_of_toOption (by decide +kernel)
  obtain ⟨xs, k, j, h, -⟩ := retried_finalizer_figures Topic.orderUpdated 3 depotOfNone hp
  exact ⟨hp, by decide, by decide +kernel, xs, k, j, h⟩

end Fulfilment
