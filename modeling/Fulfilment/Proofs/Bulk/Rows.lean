import Fulfilment.Bulk.Worker
import Fulfilment.Proofs.Order.Intake

/-!
# How a row fares

All that taking in a row can come to, with the calls it makes (`ingestRow_spec`): it may fall out when it is read,
when its article is looked up, when its order is stored (`storeRow_spec`), and when that is announced, with the order
stored all the same.
-/

namespace Fulfilment

open Depot (Booked)
open Program (bind_eq)

/-- What storing the order of a row tells, and the calls it makes. -/
inductive StoringRow (topic : String) (r : OrderRequest) (d : Depot) : Except RowError Unit → List Call → Prop
  | notStored {f : Failure} : StoringRow topic r d (.error (.persistence f)) [.insert r.draft none]
  | notTold {f : Failure} : StoringRow topic r d (.error (.publish f)) (r.storing topic d false)
  | stored : StoringRow topic r d (.ok ()) (r.storing topic d true)

theorem storeRow_spec (s : BulkSettings) (r : OrderRequest) (d : Depot) :
    ∃ res d' cs, storeRow s r d = (res, d') ∧ StoringRow s.createdTopic r d res cs ∧ Booked d cs d' := by
  unfold storeRow
  rcases Depot.insert_spec r.draft d with ⟨d₁, hi, hb⟩ | ⟨d₁, hi, hb⟩
  · exact ⟨_, d₁, _, bind_eq hi, .notStored, hb⟩
  rw [bind_eq hi]
  dsimp only
  rcases announce_spec s.createdTopic (d.nextOrder r.draft) d₁ with ⟨f, d₂, ha, hb'⟩ | ⟨d₂, ha, hb'⟩
  · exact ⟨_, d₂, _, bind_eq ha, .notTold, hb.trans hb'⟩
  · exact ⟨_, d₂, _, bind_eq ha, .stored, hb.trans hb'⟩

/-- Whether the article of a request is good enough for the settings: any is, unless it is to be looked up. -/
def BulkSettings.admits (s : BulkSettings) (d : Depot) (r : OrderRequest) : Bool :=
  !s.verifyInventory || d.resolves r.hubId r.skuId

/-- What looking up the article of a row tells, and the calls it makes. -/
inductive VerifyingRow (s : BulkSettings) (r : OrderRequest) (d : Depot) :
    Except InventoryError Unit → List Call → Prop
  | unasked (admitted : s.admits d r = true) : VerifyingRow s r d (.ok ()) []
  | found (admitted : s.admits d r = true) : VerifyingRow s r d (.ok ()) [.lookup r.hubId r.skuId (some 1)]
  | missing {e : InventoryError} {found : Option Nat} (refused : s.admits d r = false) :
    VerifyingRow s r d (.error e) [.lookup r.hubId r.skuId found]

theorem verifyRow_spec (s : BulkSettings) (r : OrderRequest) (d : Depot) :
    ∃ res d' cs, verifyRow s r d = (res, d') ∧ VerifyingRow s r d res cs ∧ Booked d cs d' := by
  unfold verifyRow
  cases hv : s.verifyInventory with
  | false =>
    have admitted : s.admits d r = true := by simp [BulkSettings.admits, hv]
    exact ⟨_, d, [], rfl, .unasked admitted, .refl d⟩
  | true =>
    have hadmits : s.admits d r = d.resolves r.hubId r.skuId := by simp [BulkSettings.admits, hv]
    rw [if_pos rfl]
    rcases snapshot_cases r.hubId r.skuId d with ⟨hr, _, d', hs, hb⟩ | ⟨hr, _, _, d', hs, hb⟩
    · exact ⟨_, d', _, bind_eq hs, .found (hadmits.trans hr), hb⟩
    · exact ⟨_, d', _, bind_eq hs, .missing (hadmits.trans hr), hb⟩

theorem VerifyingRow.not_writesOrders {s : BulkSettings} {r : OrderRequest} {d : Depot}
    {res : Except InventoryError Unit} {cs : List Call} (h : VerifyingRow s r d res cs) :
    ∀ c ∈ cs, c.writesOrders = false := by
  cases h <;> simp [Call.writesOrders]

/-- What taking in a row tells, and the calls it makes. -/
inductive TakingRow (s : BulkSettings) (c : Columns) (row : Row) (d : Depot) : Except RowError Unit → List Call → Prop
  | invalid {e : ValidationError} (fault : c.parse row = .error e) : TakingRow s c row d (.error (.invalid e)) []
  | unverified {r : OrderRequest} {e : InventoryError} {cs : List Call} (parsed : c.parse row = .ok r)
      (verifying : VerifyingRow s r d (.error e) cs) : TakingRow s c row d (.error (.inventory e)) cs
  | storing {r : OrderRequest} {res : Except RowError Unit} {cs cs' : List Call} (parsed : c.parse row = .ok r)
      (verifying : VerifyingRow s r d (.ok ()) cs) (storing : StoringRow s.createdTopic r d res cs') :
    TakingRow s c row d res (cs ++ cs')

theorem ingestRow_spec (s : BulkSettings) (c : Columns) (row : Row) (d : Depot) :
    ∃ res d' cs, ingestRow s c row d = (res, d') ∧ TakingRow s c row d res cs ∧ Booked d cs d' := by
  unfold ingestRow
  cases hp : c.parse row with
  | error e => exact ⟨_, d, [], rfl, .invalid hp, .refl d⟩
  | ok r =>
    obtain ⟨v, d₁, cs, hv, hc, hb⟩ := verifyRow_spec s r d
    dsimp only
    rw [bind_eq hv]
    cases v with
    | error e => exact ⟨_, d₁, cs, rfl, .unverified hp hc, hb⟩
    | ok u =>
      obtain ⟨res, d₂, cs', hs, hc', hb'⟩ := storeRow_spec s r d₁
      -- the lookup has stored nothing, so the order is the one that was next before it
      have hn : r.storing s.createdTopic d₁ = r.storing s.createdTopic d := by
        unfold OrderRequest.storing
        rw [hb.nextOrder_eq hc.not_writesOrders]
      have storing : StoringRow s.createdTopic r d res cs' := by
        cases hc' with
        | notStored => exact .notStored
        | notTold =>
          rw [hn]
          exact .notTold
        | stored =>
          rw [hn]
          exact .stored
      exact ⟨res, d₂, cs ++ cs', hs, .storing hp hc storing, hb.trans hb'⟩

/-- A row is refused by how it reads just when it cannot be parsed, and then for that reason. -/
theorem TakingRow.invalid_iff {s : BulkSettings} {c : Columns} {row : Row} {d : Depot} {res : Except RowError Unit}
    {cs : List Call} (h : TakingRow s c row d res cs) (e : ValidationError) :
    res = .error (.invalid e) ↔ c.parse row = .error e := by
  cases h with
  | invalid fault =>
    rw [fault]
    simp
  | unverified parsed =>
    rw [parsed]
    simp
  | storing parsed _ storing =>
    rw [parsed]
    cases storing <;> simp

end Fulfilment
