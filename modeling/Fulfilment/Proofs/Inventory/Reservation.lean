import Fulfilment.Proofs.Depot.Ledger
import Fulfilment.Proofs.Depot.Stock
import Fulfilment.Proofs.Program

/-!
# How a reservation fares

All that setting stock aside can come to, with the calls it makes (`reserve_spec`): a figure is put only after a
single record was found that allows the quantity, and it is the figure found less the quantity. Whether there is a
single record at all is `Depot.resolves` (`snapshot_cases`).
-/

namespace Fulfilment

open Program (bind_eq)

/-- What a reservation tells, and the calls it makes. -/
inductive Reserving (d : Depot) (tenantId hubId skuId : String) (quantity : Int64) (rule : AvailabilityRule) :
    Except InventoryError ReserveOutcome → List Call → Prop
  | unanswered : Reserving d tenantId hubId skuId quantity rule (.error (.lookup "connection refused"))
      [.lookup hubId skuId none]
  | noRecord {e : InventoryError} (missing : onlyRecord hubId skuId (d.records hubId skuId) = .error e) :
    Reserving d tenantId hubId skuId quantity rule (.error e)
      [.lookup hubId skuId (some (d.records hubId skuId).length)]
  | insufficient {s : Snapshot} (record : d.records hubId skuId = [s]) (short : s.after? rule quantity = none) :
    Reserving d tenantId hubId skuId quantity rule (.ok (.insufficient (s.available rule)))
      [.lookup hubId skuId (some 1)]
  | notPut {s : Snapshot} {left : Int64} (record : d.records hubId skuId = [s])
      (enough : s.after? rule quantity = some left) :
    Reserving d tenantId hubId skuId quantity rule (.error (.update "503 Service Unavailable"))
      [.lookup hubId skuId (some 1), .setOnHand ⟨tenantId, hubId, skuId, left⟩ false]
  | put {s : Snapshot} {left : Int64} (record : d.records hubId skuId = [s])
      (enough : s.after? rule quantity = some left) :
    Reserving d tenantId hubId skuId quantity rule (.ok (.reserved s.onHand left))
      [.lookup hubId skuId (some 1), .setOnHand ⟨tenantId, hubId, skuId, left⟩ true]

theorem isMissingRecord_of_onlyRecord {hubId skuId : String} {records : List Snapshot} {e : InventoryError}
    (h : onlyRecord hubId skuId records = .error e) : e.isMissingRecord = true ∧ records.length ≠ 1 := by
  match records, h with
  | [], h =>
    cases h
    exact ⟨rfl, by decide⟩
  | _ :: _ :: _, h =>
    cases h
    exact ⟨rfl, by simp⟩

/-- A reservation touches no order. -/
theorem Reserving.not_writesOrders {d : Depot} {tenantId hubId skuId : String} {quantity : Int64}
    {rule : AvailabilityRule} {r : Except InventoryError ReserveOutcome} {cs : List Call}
    (h : Reserving d tenantId hubId skuId quantity rule r cs) : ∀ c ∈ cs, c.writesOrders = false := by
  cases h <;> simp [Call.writesOrders]

theorem onlyRecord_cases (hubId skuId : String) (records : List Snapshot) :
    (∃ e, onlyRecord hubId skuId records = .error e) ∨
      ∃ s, records = [s] ∧ onlyRecord hubId skuId records = .ok s := by
  match records with
  | [] => exact .inl ⟨_, rfl⟩
  | [s] => exact .inr ⟨s, rfl, rfl⟩
  | _ :: _ :: _ => exact .inl ⟨_, rfl⟩

/-- Whether a lookup that is made now finds a single record of an article at a hub. -/
def Depot.resolves (d : Depot) (hubId skuId : String) : Bool :=
  !d.lookups.strikes && (d.records hubId skuId).length == 1

section

variable (hubId skuId : String) (d : Depot)

theorem snapshot_spec :
    (d.lookups.strikes = true ∧
      ∃ d', Depot.inventory.snapshot hubId skuId d = (.error (.lookup "connection refused"), d') ∧
        Depot.Booked d [.lookup hubId skuId none] d') ∨
    (d.lookups.strikes = false ∧
      ∃ d', Depot.inventory.snapshot hubId skuId d = (onlyRecord hubId skuId (d.records hubId skuId), d') ∧
        Depot.Booked d [.lookup hubId skuId (some (d.records hubId skuId).length)] d') := by
  unfold Inventory.snapshot
  rcases Depot.lookup_spec hubId skuId d with ⟨hs, d', hl, hb⟩ | ⟨hs, d', hl, hb⟩
  · exact .inl ⟨hs, d', bind_eq hl, hb⟩
  · exact .inr ⟨hs, d', bind_eq hl, hb⟩

theorem snapshot_cases :
    (d.resolves hubId skuId = true ∧ ∃ s d', Depot.inventory.snapshot hubId skuId d = (.ok s, d') ∧
      Depot.Booked d [.lookup hubId skuId (some 1)] d') ∨
    (d.resolves hubId skuId = false ∧ ∃ e found d', Depot.inventory.snapshot hubId skuId d = (.error e, d') ∧
      Depot.Booked d [.lookup hubId skuId found] d') := by
  unfold Depot.resolves
  rcases snapshot_spec hubId skuId d with ⟨hs, d', hl, hb⟩ | ⟨hs, d', hl, hb⟩
  · rw [hs]
    exact .inr ⟨rfl, _, _, d', hl, hb⟩
  rw [hs]
  rcases onlyRecord_cases hubId skuId (d.records hubId skuId) with ⟨e, he⟩ | ⟨s, hr, he⟩
  · have hn := (isMissingRecord_of_onlyRecord he).2
    rw [he] at hl
    exact .inr ⟨by simpa using hn, e, _, d', hl, hb⟩
  · rw [hr] at hb ⊢
    rw [he] at hl
    exact .inl ⟨rfl, s, d', hl, hb⟩

theorem reserve_spec (tenantId : String) (quantity : Int64) (rule : AvailabilityRule) :
    ∃ r d' cs, Depot.inventory.reserve tenantId hubId skuId quantity rule d = (r, d') ∧
      Reserving d tenantId hubId skuId quantity rule r cs ∧ Depot.Booked d cs d' := by
  unfold Inventory.reserve
  rcases snapshot_spec hubId skuId d with ⟨-, d₁, hl, hb⟩ | ⟨-, d₁, hl, hb⟩
  · exact ⟨_, d₁, _, bind_eq hl, .unanswered, hb⟩
  rcases onlyRecord_cases hubId skuId (d.records hubId skuId) with ⟨e, he⟩ | ⟨s, hs, he⟩
  · rw [he] at hl
    exact ⟨_, d₁, _, bind_eq hl, .noRecord he, hb⟩
  rw [he] at hl
  rw [hs] at hb
  rw [bind_eq hl]
  dsimp only
  cases ha : s.after? rule quantity with
  | none => exact ⟨_, d₁, _, rfl, .insufficient hs ha, hb⟩
  | some left =>
    rcases Depot.setOnHand_spec ⟨tenantId, hubId, skuId, left⟩ d₁ with ⟨d₂, hu, hb'⟩ | ⟨d₂, hu, hb'⟩
    · exact ⟨_, d₂, _, bind_eq hu, .notPut hs ha, hb.trans hb'⟩
    · exact ⟨_, d₂, _, bind_eq hu, .put hs ha, hb.trans hb'⟩

end

end Fulfilment
