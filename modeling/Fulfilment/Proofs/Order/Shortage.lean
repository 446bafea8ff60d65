import Fulfilment.Proofs.Order.Finalization
import Fulfilment.Proofs.Order.Intake

/-!
# What is told of a shortage

Where a quantity is not set aside, the figure that counts as available is told. It is never more than what is on hand.
It is never below zero either under the rule of intake, but under the strict rule it is where more is reserved than is
on hand (`Snapshot.available_nonneg_iff`): an order that waits for such stock is told a figure below zero
(`shortage_told`).
-/

namespace Fulfilment

open Program (bind_eq)

namespace Snapshot

/-- More is reserved than there is on hand. -/
def Overbooked (s : Snapshot) : Prop := max s.onHand.toInt 0 < s.reserved.toInt

variable (s : Snapshot) (rule : AvailabilityRule)

theorem available_le : s.available rule ≤ max s.onHand.toInt 0 := by
  cases rule <;> simp only [available]
  · exact Int.le_refl _
  · omega

/-- The figure is one of a word of 64 bits. -/
theorem min64_lt_available : min64 < s.available rule := by
  have hreserved : s.reserved.toInt ≤ 2 ^ 63 - 1 := s.reserved.toInt_le
  cases rule <;> simp only [available, min64] <;> omega

theorem available_nonneg_iff : 0 ≤ s.available rule ↔ rule = .onHand ∨ ¬ s.Overbooked := by
  unfold Overbooked
  cases rule with
  | onHand => exact iff_of_true (Int.le_max_right _ _) (.inl rfl)
  | onHandLessReserved =>
    simp only [available, reduceCtorEq, false_or]
    omega

/-- No quantity is set aside where more is reserved than is on hand. -/
theorem after?_of_overbooked {s : Snapshot} (overbooked : s.Overbooked) {quantity : Int64} (hq : 0 ≤ quantity.toInt) :
    s.after? .onHandLessReserved quantity = none := by
  have hneg : ¬ 0 ≤ s.available .onHandLessReserved := by
    rw [available_nonneg_iff]
    exact fun h => h.elim nofun (absurd overbooked)
  unfold after?
  exact if_neg fun h => by omega

end Snapshot

/-! ### Reservations -/

section

variable {σ : Type} {w : σ} {tenantId hubId skuId : String} {quantity : Int64} {rule : AvailabilityRule} {a : Int}

/-- Whatever keeps the stock, the figure told is what counts as available of the record found. -/
theorem Inventory.of_insufficient (i : Inventory (StateM σ))
    (h : (i.reserve tenantId hubId skuId quantity rule w).1 = .ok (.insufficient a)) :
    ∃ s, (i.snapshot hubId skuId w).1 = .ok s ∧ a = s.available rule := by
  unfold Inventory.reserve at h
  obtain ⟨found, w₁, hs⟩ : ∃ found w₁, i.snapshot hubId skuId w = (found, w₁) := ⟨_, _, rfl⟩
  rw [bind_eq hs] at h
  rw [hs]
  cases found with
  | error e => cases h
  | ok s =>
    refine ⟨s, rfl, ?_⟩
    dsimp only at h
    cases hleft : s.after? rule quantity with
    | none =>
      rw [hleft] at h
      cases h
      rfl
    | some left =>
      rw [hleft] at h
      obtain ⟨put, w₂, hp⟩ : ∃ put w₂, i.setOnHand ⟨tenantId, hubId, skuId, left⟩ w₁ = (put, w₂) := ⟨_, _, rfl⟩
      dsimp only at h
      rw [bind_eq hp] at h
      cases put <;> cases h

theorem Depot.reserve_insufficient {d : Depot} {s : Snapshot} (tenantId : String) (up : d.lookups.strikes = false)
    (record : d.records hubId skuId = [s]) (short : s.after? rule quantity = none) :
    ∃ d', Depot.inventory.reserve tenantId hubId skuId quantity rule d =
      (.ok (.insufficient (s.available rule)), d') := by
  rcases snapshot_spec hubId skuId d with ⟨down, -⟩ | ⟨-, d', hs, -⟩
  · cases up.symm.trans down
  · rw [record] at hs
    refine ⟨d', ?_⟩
    unfold Inventory.reserve
    rw [bind_eq hs]
    simp only [onlyRecord, short]
    rfl

end

/-! ### Orders -/

/-- Where intake tells a shortage, it tells what counts as available under its rule. -/
theorem Creating.available_of_insufficient {topic : String} {request : OrderRequest} {d : Depot}
    {r : Except IntakeError Uuid} {cs : List Call} {a : Int} {n : Int32} (h : Creating topic request d r cs)
    (hr : r = .error (.insufficientInventory a n)) : ∃ s : Snapshot, a = s.available .onHand := by
  cases h with
  | invalid => cases hr
  | @notReserved e =>
    -- no failure of the stock stands for a shortage
    cases e <;> cases hr
  | insufficient valid reserving =>
    cases hr
    cases reserving with
    | insufficient record short => exact ⟨_, rfl⟩
  | notStored => cases hr
  | stored => cases hr

/-- What counts as available is at most what is on hand, and it is not below zero just where the strict rule does not
apply or no more is reserved than is on hand. Whatever keeps the stock, that figure is what a reservation tells.
Intake never tells a figure below zero. An order left on hold is told what counts as available of its one record by
the strict rule, and so it is wherever more is reserved than is on hand. -/
theorem shortage_told (s : Snapshot) (rule : AvailabilityRule) (topic : String) (d : Depot) :
    (s.available rule ≤ max s.onHand.toInt 0 ∧ min64 < s.available rule ∧
      (0 ≤ s.available rule ↔ rule = .onHand ∨ ¬ s.Overbooked)) ∧
    (∀ (σ : Type) (i : Inventory (StateM σ)) (tenantId hubId skuId : String) (quantity : Int64) (w : σ) (a : Int),
      (i.reserve tenantId hubId skuId quantity rule w).1 = .ok (.insufficient a) →
        ∃ found, (i.snapshot hubId skuId w).1 = .ok found ∧ a = found.available rule ∧
          (0 ≤ a ↔ rule = .onHand ∨ ¬ found.Overbooked)) ∧
    (∀ (request : OrderRequest) (a : Int) (n : Int32),
      (createOrder topic request d).1 = .error (.insufficientInventory a n) → 0 ≤ a) ∧
    (∀ (e : OrderCreated) (a : Int), (finalize topic e d).1 = .ok (.onHold a) →
      ∃ found, d.records e.hubId e.skuId = [found] ∧ a = found.available .onHandLessReserved ∧
        (0 ≤ a ↔ ¬ found.Overbooked)) ∧
    (∀ e : OrderCreated, d.lookups.strikes = false → d.records e.hubId e.skuId = [s] → s.Overbooked →
      0 ≤ e.quantity.toInt → (finalize topic e d).1 = .ok (.onHold (s.available .onHandLessReserved))) := by
  refine ⟨⟨s.available_le rule, s.min64_lt_available rule, s.available_nonneg_iff rule⟩, ?_, ?_, ?_, ?_⟩
  · intro σ i tenantId hubId skuId quantity w a h
    obtain ⟨found, hs, rfl⟩ := i.of_insufficient h
    exact ⟨found, hs, rfl, found.available_nonneg_iff rule⟩
  · intro request a n h
    obtain ⟨r, d', cs, hr, hc, -⟩ := createOrder_spec topic request d
    rw [hr] at h
    obtain ⟨found, rfl⟩ := hc.available_of_insufficient h
    exact (found.available_nonneg_iff .onHand).2 (.inl rfl)
  · intro e a h
    obtain ⟨r, d', cs, hr, hc, -⟩ := finalize_spec topic e d
    rw [hr] at h
    cases h
    cases hc with
    | @onHold found record short =>
      refine ⟨found, record, rfl, ?_⟩
      rw [found.available_nonneg_iff]
      simp
  · intro e up record overbooked hq
    rw [← Int32.toInt_toInt64] at hq
    obtain ⟨d', hr⟩ := Depot.reserve_insufficient e.tenantId up record (Snapshot.after?_of_overbooked overbooked hq)
    unfold finalize
    rw [bind_eq hr]
    rfl

/-- Two pieces on hand, and five reserved. -/
def twoOfFive : Snapshot := ⟨"h1", "k1", 2, 5, none⟩

def midsummer : Instant := ⟨⟨2024, 6, 21, by decide⟩, 0, 0, .refl true⟩

def allFives : Uuid := ⟨List.replicate 32 ⟨5, by decide⟩, by decide⟩

def depotOfOverbooked : Depot :=
  { Depot.opened ⟨midsummer, fun _ => (allFives, midsummer), fun _ => allFives⟩ with stock := [twoOfFive] }

def createdOfOne : OrderCreated where
  orderId := allFives
  tenantId := "t1"
  sellerId := "s1"
  hubId := "h1"
  skuId := "k1"
  quantity := 1
  createdAt := midsummer

theorem shortage_told_below_zero :
    twoOfFive.Overbooked ∧ (finalize Topic.orderUpdated createdOfOne depotOfOverbooked).1 = .ok (.onHold (-3)) := by
  have overbooked : twoOfFive.Overbooked := by
    unfold Snapshot.Overbooked
    decide
  have figure : twoOfFive.available .onHandLessReserved = -3 := by decide
  have record : depotOfOverbooked.records createdOfOne.hubId createdOfOne.skuId = [twoOfFive] := by decide
  refine ⟨overbooked, ?_⟩
  rw [← figure]
  exact (shortage_told twoOfFive .onHandLessReserved Topic.orderUpdated depotOfOverbooked).2.2.2.2
    createdOfOne rfl record
    overbooked (by decide)

end Fulfilment
