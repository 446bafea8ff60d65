import Fulfilment.Bulk.Columns
import Fulfilment.Depot.Basic
import Fulfilment.Order.Intake
import Fulfilment.Proofs.Program

/-!
# What is accepted

An order is sound when its quantity is positive and its identifiers are neat. Both ways in accept only requests that
become sound orders: a request of its own when it is trimmed and valid (`sound_of_validate_trimmed`), and the row of a
file when it can be parsed (`Columns.sound_of_parse`).
-/

namespace Fulfilment

/-- Text that is not empty and has no white space at either end. -/
structure Neat (s : String) : Prop where
  ne_empty : s ≠ ""
  head : ∀ c ∈ s.toList.head?, isBlank c = false
  last : ∀ c ∈ s.toList.getLast?, isBlank c = false

structure Order.Sound (o : Order) : Prop where
  tenantId : Neat o.tenantId
  sellerId : Neat o.sellerId
  hubId : Neat o.hubId
  skuId : Neat o.skuId
  quantity : 0 < o.quantity.toInt

namespace Blank

theorem isBlank_head_trim (cs : List Char) : ∀ c ∈ (trim cs).head?, isBlank c = false := by
  intro c hc
  unfold trim at hc
  rcases trimStart_eq_nil_or cs with h | ⟨x, rest, h, hx⟩
  · rw [h] at hc
    cases hc
  · rw [h, trimEnd_cons hx] at hc
    cases hc
    exact hx

theorem isBlank_last_trimEnd (cs : List Char) : ∀ c ∈ (trimEnd cs).getLast?, isBlank c = false := by
  intro c hc
  unfold trimEnd at hc
  rw [List.getLast?_reverse] at hc
  rcases trimStart_eq_nil_or cs.reverse with h | ⟨x, rest, h, hx⟩
  · rw [trimStart] at h
    rw [h] at hc
    cases hc
  · rw [trimStart] at h
    rw [h] at hc
    cases hc
    exact hx

end Blank

/-- What is left of a text without white space at its ends is neat, unless it is blank. -/
theorem neat_trim {cs : List Char} (h : blank (String.ofList (Blank.trim cs)) = false) :
    Neat (String.ofList (Blank.trim cs)) := by
  refine ⟨?_, ?_, ?_⟩
  · intro he
    rw [he] at h
    cases h
  · rw [String.toList_ofList]
    exact Blank.isBlank_head_trim cs
  · rw [String.toList_ofList]
    exact Blank.isBlank_last_trimEnd _

namespace OrderRequest

/-- The form of a request that has its identifiers without white space at their ends. -/
structure Trimmed (r : OrderRequest) : Prop where
  tenantId : ∃ cs, r.tenantId = String.ofList (Blank.trim cs)
  sellerId : ∃ cs, r.sellerId = String.ofList (Blank.trim cs)
  hubId : ∃ cs, r.hubId = String.ofList (Blank.trim cs)
  skuId : ∃ cs, r.skuId = String.ofList (Blank.trim cs)

theorem trimmed_trimmed (r : OrderRequest) : r.trimmed.Trimmed := ⟨⟨_, rfl⟩, ⟨_, rfl⟩, ⟨_, rfl⟩, ⟨_, rfl⟩⟩

theorem of_validate {r : OrderRequest} (h : r.validate = .ok ()) :
    (∀ i ∈ r.identifiers, blank i.2 = false) ∧ 0 < r.quantity.toInt := by
  unfold validate at h
  split at h
  · cases h
  · rename_i hn
    split at h
    · cases h
    · rename_i hq
      refine ⟨?_, ?_⟩
      · intro i hi
        have := List.find?_eq_none.1 hn i hi
        rwa [Bool.not_eq_true] at this
      · rw [Int32.le_iff_toInt_le] at hq
        exact Int.not_le.1 hq

/-- A trimmed request that is valid makes a sound order. -/
theorem sound_of_validate {r : OrderRequest} (ht : r.Trimmed) (h : r.validate = .ok ()) (id : Uuid) (time : Instant) :
    (r.draft.order id time).Sound := by
  obtain ⟨hb, hq⟩ := of_validate h
  have neat : ∀ i ∈ r.identifiers, (∃ cs, i.2 = String.ofList (Blank.trim cs)) → Neat i.2 := by
    intro i hi ⟨cs, hcs⟩
    have := hb i hi
    rw [hcs] at this ⊢
    exact neat_trim this
  exact
    { tenantId := neat ("tenant_id", r.tenantId) (by simp [identifiers]) ht.tenantId
      sellerId := neat ("seller_id", r.sellerId) (by simp [identifiers]) ht.sellerId
      hubId := neat ("hub_id", r.hubId) (by simp [identifiers]) ht.hubId
      skuId := neat ("sku_id", r.skuId) (by simp [identifiers]) ht.skuId
      quantity := hq }

end OrderRequest

namespace Columns

theorem trim_of_field {row : Row} {i : Nat} {name s : String} (h : field row i name = .ok s) :
    ∃ cs, s = String.ofList (Blank.trim cs) := by
  unfold field at h
  split at h
  · cases h
    exact ⟨_, rfl⟩
  · cases h

theorem of_parse {c : Columns} {row : Row} {r : OrderRequest} (h : c.parse row = .ok r) :
    r.Trimmed ∧ r.validate = .ok () := by
  unfold parse at h
  obtain ⟨text, -, h⟩ := Program.ok_of_bind h
  obtain ⟨tenantId, htenant, h⟩ := Program.ok_of_bind h
  obtain ⟨sellerId, hseller, h⟩ := Program.ok_of_bind h
  obtain ⟨hubId, hhub, h⟩ := Program.ok_of_bind h
  obtain ⟨skuId, hsku, h⟩ := Program.ok_of_bind h
  obtain ⟨quantity, -, h⟩ := Program.ok_of_bind h
  obtain ⟨_, hvalid, h⟩ := Program.ok_of_bind h
  cases h
  exact ⟨⟨trim_of_field htenant, trim_of_field hseller, trim_of_field hhub, trim_of_field hsku⟩, hvalid⟩

/-- The request of a row makes a sound order. -/
theorem sound_of_parse {c : Columns} {row : Row} {r : OrderRequest} (h : c.parse row = .ok r) (id : Uuid)
    (time : Instant) : (r.draft.order id time).Sound :=
  OrderRequest.sound_of_validate (of_parse h).1 (of_parse h).2 id time

end Columns

end Fulfilment
