import Fulfilment.Depot.Basic

/-!
# Figures on hand

What it means to put the figure on hand of an article at a hub: only that figure changes, the figures of other
articles and all other entries of the records stay (`filter_putOnHand_ne`, `map_putOnHand`), and of two figures put
one after the other the second counts (`putOnHand_putOnHand`). What is left of a figure when a quantity is set aside
is the exact difference, and is never below zero (`Snapshot.toInt_of_after?`).
-/

namespace Fulfilment

namespace Snapshot

theorem isOf_iff {s : Snapshot} {hubId skuId : String} :
    s.isOf hubId skuId = true ↔ s.hubId = hubId ∧ s.skuId = skuId := by
  unfold isOf
  rw [Bool.and_eq_true, beq_iff_eq, beq_iff_eq]

theorem toInt_of_after? {s : Snapshot} {rule : AvailabilityRule} {quantity left : Int64}
    (h : s.after? rule quantity = some left) :
    left.toInt = s.onHand.toInt - quantity.toInt ∧ 0 ≤ left.toInt ∧ quantity.toInt ≤ s.available rule := by
  unfold after? at h
  dsimp only at h
  split at h
  · rename_i hc
    obtain ⟨hq, h0, hm⟩ := hc
    cases h
    have he : (Int64.ofInt (s.onHand.toInt - quantity.toInt)).toInt = s.onHand.toInt - quantity.toInt :=
      Int64.toInt_ofInt_of_le (by omega) (by unfold max64 at hm; omega)
    rw [he]
    exact ⟨rfl, h0, hq⟩
  · cases h

end Snapshot

namespace Depot

section PutOnHand

variable {hubId skuId : String} {x : Int64} {stock : List Snapshot} {t : Snapshot}

private theorem putOnHand_cons_of_isOf (ht : t.isOf hubId skuId = true) :
    putOnHand hubId skuId x (t :: stock) = { t with onHand := x } :: stock := by
  rw [putOnHand, if_pos ht]

private theorem putOnHand_cons_of_not_isOf (ht : t.isOf hubId skuId = false) :
    putOnHand hubId skuId x (t :: stock) = t :: putOnHand hubId skuId x stock := by
  rw [putOnHand, ht]
  rfl

private theorem isOf_with_onHand : Snapshot.isOf { t with onHand := x } hubId skuId = t.isOf hubId skuId := rfl

/-- The one record of an article, after its figure is put. -/
theorem filter_putOnHand_self {s : Snapshot} (h : stock.filter (·.isOf hubId skuId) = [s]) :
    (putOnHand hubId skuId x stock).filter (·.isOf hubId skuId) = [{ s with onHand := x }] := by
  induction stock with
  | nil => cases h
  | cons t rest ih =>
    cases ht : t.isOf hubId skuId with
    | true =>
      simp only [List.filter_cons, ht, if_true] at h
      obtain ⟨rfl, hr⟩ := List.cons.inj h
      rw [putOnHand_cons_of_isOf ht]
      simp only [List.filter_cons, isOf_with_onHand, ht, if_true, hr]
    | false =>
      simp only [List.filter_cons, ht, Bool.false_eq_true, if_false] at h
      rw [putOnHand_cons_of_not_isOf ht]
      simp only [List.filter_cons, ht, Bool.false_eq_true, if_false]
      exact ih h

theorem filter_putOnHand_ne {hubId' skuId' : String} (h : ¬(hubId' = hubId ∧ skuId' = skuId)) :
    (putOnHand hubId skuId x stock).filter (·.isOf hubId' skuId') = stock.filter (·.isOf hubId' skuId') := by
  induction stock with
  | nil => rfl
  | cons t rest ih =>
    cases ht : t.isOf hubId skuId with
    | true =>
      have hn : t.isOf hubId' skuId' = false := by
        rw [← Bool.not_eq_true, Snapshot.isOf_iff]
        rintro ⟨rfl, rfl⟩
        exact h (Snapshot.isOf_iff.1 ht)
      rw [putOnHand_cons_of_isOf ht]
      simp only [List.filter_cons, isOf_with_onHand, hn, Bool.false_eq_true, if_false]
    | false =>
      rw [putOnHand_cons_of_not_isOf ht, List.filter_cons, List.filter_cons, ih]

/-- Nothing but figures on hand is touched. -/
theorem map_putOnHand {α : Type} {f : Snapshot → α} (hf : ∀ s x, f { s with onHand := x } = f s) :
    (putOnHand hubId skuId x stock).map f = stock.map f := by
  induction stock with
  | nil => rfl
  | cons t rest ih =>
    unfold putOnHand
    split
    · rw [List.map_cons, List.map_cons, hf]
    · rw [List.map_cons, List.map_cons, ih]

/-- Where an article has one record, only its figure is put. -/
theorem getElem?_putOnHand {r : Snapshot} (h : stock.filter (·.isOf hubId skuId) = [r]) {i : Nat}
    (hi : stock[i]? = some t) :
    (putOnHand hubId skuId x stock)[i]? = some (if t.isOf hubId skuId then { t with onHand := x } else t) := by
  induction stock generalizing i with
  | nil => cases hi
  | cons head rest ih =>
    cases hh : head.isOf hubId skuId with
    | true =>
      rw [putOnHand_cons_of_isOf hh]
      cases i with
      | zero =>
        cases hi
        rw [hh]
        rfl
      | succ i =>
        -- the record was the first, so there is none behind it
        have none : ∀ t ∈ rest, t.isOf hubId skuId = false := by
          simp only [List.filter_cons, hh, if_true, List.cons.injEq, List.filter_eq_nil_iff] at h
          simpa using h.2
        rw [none t (List.mem_of_getElem? hi)]
        exact hi
    | false =>
      rw [putOnHand_cons_of_not_isOf hh]
      cases i with
      | zero =>
        cases hi
        rw [hh]
        rfl
      | succ i =>
        simp only [List.filter_cons, hh, Bool.false_eq_true, if_false] at h
        exact ih h hi

theorem putOnHand_putOnHand (y : Int64) :
    putOnHand hubId skuId y (putOnHand hubId skuId x stock) = putOnHand hubId skuId y stock := by
  induction stock with
  | nil => rfl
  | cons t rest ih =>
    cases ht : t.isOf hubId skuId with
    | true =>
      rw [putOnHand_cons_of_isOf ht, putOnHand_cons_of_isOf ht]
      exact putOnHand_cons_of_isOf (isOf_with_onHand.trans ht)
    | false => rw [putOnHand_cons_of_not_isOf ht, putOnHand_cons_of_not_isOf ht, putOnHand_cons_of_not_isOf ht, ih]

end PutOnHand

/-- The one record of an article has `amount` less on hand, and nothing else has changed. -/
def Drawn (hubId skuId : String) (amount : Int) (stock stock' : List Snapshot) : Prop :=
  ∃ s left, stock.filter (·.isOf hubId skuId) = [s] ∧ left.toInt = s.onHand.toInt - amount ∧
    stock' = putOnHand hubId skuId left stock

theorem Drawn.trans {hubId skuId : String} {a b : Int} {stock₁ stock₂ stock₃ : List Snapshot}
    (h : Drawn hubId skuId a stock₁ stock₂) (h' : Drawn hubId skuId b stock₂ stock₃) :
    Drawn hubId skuId (a + b) stock₁ stock₃ := by
  obtain ⟨s, left, hs, hl, rfl⟩ := h
  obtain ⟨s', left', hs', hl', rfl⟩ := h'
  rw [filter_putOnHand_self hs, List.cons.injEq] at hs'
  obtain ⟨rfl, -⟩ := hs'
  refine ⟨s, left', hs, ?_, putOnHand_putOnHand left'⟩
  dsimp only at hl'
  omega

/-- What has less on hand is not what it was. -/
theorem Drawn.ne {hubId skuId : String} {amount : Int} {stock stock' : List Snapshot}
    (h : Drawn hubId skuId amount stock stock') (hne : amount ≠ 0) : stock' ≠ stock := by
  obtain ⟨s, left, hs, hl, rfl⟩ := h
  intro he
  have hput := filter_putOnHand_self (x := left) hs
  rw [he, hs, List.cons.injEq] at hput
  have : s.onHand = left := congrArg Snapshot.onHand hput.1
  rw [← this] at hl
  omega

/-- The amount was drawn so many times, or nothing has changed. -/
def DrawnTimes (hubId skuId : String) (amount : Int) (k : Nat) (stock stock' : List Snapshot) : Prop :=
  (k = 0 ∧ stock' = stock) ∨ (0 < k ∧ Drawn hubId skuId (k * amount) stock stock')

theorem DrawnTimes.trans {hubId skuId : String} {amount : Int} {k k' : Nat} {stock₁ stock₂ stock₃ : List Snapshot}
    (h : DrawnTimes hubId skuId amount k stock₁ stock₂) (h' : DrawnTimes hubId skuId amount k' stock₂ stock₃) :
    DrawnTimes hubId skuId amount (k + k') stock₁ stock₃ := by
  rcases h with ⟨rfl, rfl⟩ | ⟨hk, hd⟩
  · rwa [Nat.zero_add]
  · right
    refine ⟨by omega, ?_⟩
    rcases h' with ⟨rfl, rfl⟩ | ⟨-, hd'⟩
    · exact hd
    · rw [Int.natCast_add, Int.add_mul]
      exact hd.trans hd'

/-- What is on hand of each record, after the amount was drawn from one of them so many times. -/
theorem DrawnTimes.getElem? {hubId skuId : String} {amount : Int} {k : Nat} {stock stock' : List Snapshot}
    (h : DrawnTimes hubId skuId amount k stock stock') {i : Nat} {s : Snapshot} (hi : stock[i]? = some s) :
    ∃ left, stock'[i]? = some { s with onHand := left } ∧
      left.toInt = s.onHand.toInt - if s.isOf hubId skuId then k * amount else 0 := by
  rcases h with ⟨rfl, rfl⟩ | ⟨-, r, left, hr, hleft, rfl⟩
  · exact ⟨s.onHand, hi, by simp⟩
  · rw [getElem?_putOnHand hr hi]
    cases hs : s.isOf hubId skuId with
    | false => exact ⟨s.onHand, rfl, by simp⟩
    | true =>
      have hmem : s ∈ stock.filter (·.isOf hubId skuId) := List.mem_filter.2 ⟨List.mem_of_getElem? hi, hs⟩
      rw [hr, List.mem_singleton] at hmem
      rw [hmem]
      exact ⟨left, rfl, by simpa using hleft⟩

end Depot

end Fulfilment
