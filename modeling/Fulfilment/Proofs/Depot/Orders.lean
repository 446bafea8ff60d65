import Fulfilment.Depot.Basic

/-!
# Moving orders

What it means to move an order to `new_order`: one order that was on hold has another status and another time of
update, and everything else about it and all other orders stay (`moveOrder_some`); nothing is moved just when no order
of that identifier is on hold (`moveOrder_eq_none`). Whatever is moved in several steps was on hold before the first
of them (`Moved.trans`), for an order that was moved is not on hold any more.
-/

namespace Fulfilment

/-- The order when it is moved. -/
def Order.moved (o : Order) (now : Instant) : Order :=
  { o with status := OrderStatus.newOrder.name, updatedAt := now }

theorem Order.isOnHold_moved (o : Order) (now : Instant) : (o.moved now).isOnHold = false := rfl

namespace Depot

variable {id : Uuid} {now : Instant} {orders orders' : List Order}

theorem moveOrder_eq_none : moveOrder id now orders = none ↔ ∀ o ∈ orders, ¬(o.id = id ∧ o.isOnHold = true) := by
  induction orders with
  | nil => simp [moveOrder]
  | cons o rest ih =>
    unfold moveOrder
    split
    · rename_i ho
      simp [ho]
    · rename_i ho
      rw [Option.map_eq_none_iff, ih, List.forall_mem_cons]
      exact ⟨fun h => ⟨ho, h⟩, fun h => h.2⟩

/-- The first order of that identifier that is on hold is moved. -/
theorem moveOrder_some (h : moveOrder id now orders = some orders') :
    ∃ l o r, orders = l ++ o :: r ∧ orders' = l ++ o.moved now :: r ∧ o.id = id ∧ o.isOnHold = true := by
  induction orders generalizing orders' with
  | nil => cases h
  | cons o rest ih =>
    unfold moveOrder at h
    split at h
    · rename_i ho
      cases h
      exact ⟨[], o, rest, rfl, rfl, ho⟩
    · rw [Option.map_eq_some_iff] at h
      obtain ⟨rest', hr, rfl⟩ := h
      obtain ⟨l, x, r, rfl, rfl, hx⟩ := ih hr
      exact ⟨o :: l, x, r, rfl, rfl, hx⟩

/-- An order keeps its place, and stays as it is or is moved. -/
theorem getElem?_moveOrder {i : Nat} {o : Order} (h : moveOrder id now orders = some orders')
    (hi : orders[i]? = some o) :
    orders'[i]? = some o ∨ o.id = id ∧ o.isOnHold = true ∧ orders'[i]? = some (o.moved now) := by
  obtain ⟨l, x, r, rfl, rfl, hx⟩ := moveOrder_some h
  rcases Nat.lt_trichotomy i l.length with hlt | rfl | hgt
  · rw [List.getElem?_append_left hlt] at hi ⊢
    exact .inl hi
  · rw [List.getElem?_append_right (Nat.le_refl _), Nat.sub_self] at hi ⊢
    cases hi
    exact .inr ⟨hx.1, hx.2, rfl⟩
  · obtain ⟨k, rfl⟩ : ∃ k, i = l.length + (k + 1) := ⟨i - l.length - 1, by omega⟩
    rw [List.getElem?_append_right (Nat.le_add_right ..), Nat.add_sub_cancel_left] at hi ⊢
    exact .inl hi

/-- What the status and the time of update say nothing about, moving does not change. -/
theorem map_moveOrder {β : Type} {f : Order → β} (hf : ∀ o : Order, f (o.moved now) = f o) :
    ((moveOrder id now orders).getD orders).map f = orders.map f := by
  cases h : moveOrder id now orders with
  | none => rfl
  | some orders' =>
    obtain ⟨l, o, r, rfl, rfl, -⟩ := moveOrder_some h
    rw [Option.getD_some, List.map_append, List.map_append, List.map_cons, List.map_cons, hf]

/-- Of an identifier that only one order has, no order is on hold once it is moved. -/
theorem not_isOnHold_moveOrder (unique : (orders.map (·.id)).count id ≤ 1) :
    ∀ o ∈ (moveOrder id now orders).getD orders, o.id = id → o.isOnHold = false := by
  intro x hx hid
  cases h : moveOrder id now orders with
  | none =>
    rw [h, Option.getD_none] at hx
    have := moveOrder_eq_none.1 h x hx
    simpa [hid] using this
  | some orders' =>
    rw [h, Option.getD_some] at hx
    obtain ⟨l, o, r, rfl, rfl, ho, -⟩ := moveOrder_some h
    rw [List.map_append, List.map_cons, List.count_append, ho, List.count_cons_self] at unique
    rw [List.mem_append, List.mem_cons] at hx
    rcases hx with hx | rfl | hx
    · have := List.count_pos_iff.2 (List.mem_map_of_mem (f := (·.id)) hx)
      rw [hid] at this
      omega
    · exact o.isOnHold_moved now
    · have := List.count_pos_iff.2 (List.mem_map_of_mem (f := (·.id)) hx)
      rw [hid] at this
      omega

/-- Orders before and after: `j` of them, on hold under that identifier, are moved, and the others are as they
were. -/
inductive Moved (id : Uuid) (now : Instant) : Nat → List Order → List Order → Prop
  | nil : Moved id now 0 [] []
  | same {j : Nat} {orders orders' : List Order} (o : Order) (rest : Moved id now j orders orders') :
    Moved id now j (o :: orders) (o :: orders')
  | moved {j : Nat} {orders orders' : List Order} (o : Order) (named : o.id = id) (held : o.isOnHold = true)
      (rest : Moved id now j orders orders') : Moved id now (j + 1) (o :: orders) (o.moved now :: orders')

namespace Moved

variable {j j' : Nat} {orders'' : List Order}

theorem refl (id : Uuid) (now : Instant) (orders : List Order) : Moved id now 0 orders orders := by
  induction orders with
  | nil => exact .nil
  | cons o rest ih => exact .same o ih

theorem trans (h : Moved id now j orders orders') (h' : Moved id now j' orders' orders'') :
    Moved id now (j + j') orders orders'' := by
  induction h generalizing j' orders'' with
  | nil => rwa [Nat.zero_add]
  | same o _ ih =>
    cases h' with
    | same _ rest' => exact .same o (ih rest')
    | moved _ named held rest' => exact .moved o named held (ih rest')
  | @moved j _ _ o named held _ ih =>
    cases h' with
    | same _ rest' =>
      rw [Nat.add_right_comm]
      exact .moved o named held (ih rest')
    | moved _ _ held' =>
      rw [o.isOnHold_moved now] at held'
      cases held'

/-- No more orders are moved than were on hold under the identifier. -/
theorem le_countP (h : Moved id now j orders orders') : j ≤ orders.countP fun o => o.id == id && o.isOnHold := by
  induction h with
  | nil => exact Nat.le_refl 0
  | same o _ ih =>
    rw [List.countP_cons]
    omega
  | moved o named held _ ih =>
    have ho : (o.id == id && o.isOnHold) = true := by simp [named, held]
    rw [List.countP_cons, ho, if_pos rfl]
    omega

end Moved

theorem moved_moveOrder (id : Uuid) (now : Instant) (orders : List Order) :
    ∃ j ≤ 1, Moved id now j orders ((moveOrder id now orders).getD orders) := by
  cases h : moveOrder id now orders with
  | none => exact ⟨0, Nat.zero_le 1, .refl id now orders⟩
  | some orders' =>
    obtain ⟨l, o, r, rfl, rfl, named, held⟩ := moveOrder_some h
    refine ⟨1, Nat.le_refl 1, ?_⟩
    rw [Option.getD_some]
    clear h
    induction l with
    | nil => exact .moved o named held (.refl id now r)
    | cons x l ih => exact .same x ih

end Depot

end Fulfilment
