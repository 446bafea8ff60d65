import Fulfilment.Proofs.Depot.Orders
import Fulfilment.Proofs.Order.Finalization

/-!
# Announcements and further attempts

An announcement may be attempted several times, and each attempt finds the stock as the one before it has left it.
What attempts that failed leave behind is `Spent`: stock taken as often as it was put, or nothing at all. When an
announcement is handled in the end, its update was told, or nothing has changed, or an earlier attempt took stock and
failed behind that, and what it left is too little for another attempt (`retried_finalizer_ok`). The last does happen:
`finalizer_strands_order`.
-/

namespace Fulfilment

open Depot (Booked Drawn)

/-- What failed attempts to finalize an order have left behind when they have taken its stock `k` times. -/
structure Spent (topic : String) (e : OrderCreated) (d : Depot) (k : Nat) (cs : List Call) (d' : Depot) : Prop where
  booked : Booked d cs d'
  count : cs.countP (·.puts e.hubId e.skuId) = k
  untold : ∀ now, e.telling topic now true ∉ cs
  ids : d'.orders.map (·.id) = d.orders.map (·.id)
  effect : (k = 0 ∧ d'.stock = d.stock ∧ d'.orders = d.orders) ∨
    (0 < k ∧ (∃ s left, e.Covered d s left) ∧ Drawn e.hubId e.skuId (k * e.quantity.toInt) d.stock d'.stock ∧
      ∃ c ∈ cs, c = .markNewOrder e.orderId none ∨ c = e.telling topic d.supply.now false)

namespace Spent

variable {topic : String} {e : OrderCreated} {d d₁ d₂ : Depot} {k k' : Nat} {cs cs' : List Call}

theorem refl (topic : String) (e : OrderCreated) (d : Depot) : Spent topic e d 0 [] d where
  booked := .refl d
  count := rfl
  untold _ := List.not_mem_nil
  ids := rfl
  effect := .inl ⟨rfl, rfl, rfl⟩

theorem trans (h : Spent topic e d k cs d₁) (h' : Spent topic e d₁ k' cs' d₂) :
    Spent topic e d (k + k') (cs ++ cs') d₂ where
  booked := h.booked.trans h'.booked
  count := by rw [List.countP_append, h.count, h'.count]
  untold now := by
    rw [List.mem_append]
    rintro (hc | hc)
    · exact h.untold now hc
    · exact h'.untold now hc
  ids := h'.ids.trans h.ids
  effect := by
    rcases h.effect with ⟨rfl, hs, ho⟩ | ⟨hk, hv, hd, c, hc, hf⟩ <;>
      rcases h'.effect with ⟨rfl, hs', ho'⟩ | ⟨hk', ⟨s, left, hv'⟩, hd', c', hc', hf'⟩
    · exact .inl ⟨rfl, hs'.trans hs, ho'.trans ho⟩
    · have hr := hv'.record
      unfold Depot.records at hr
      rw [hs] at hd' hr
      rw [h.booked.supply] at hf'
      rw [Nat.zero_add]
      exact .inr ⟨hk', ⟨s, left, hr, hv'.enough⟩, hd', c', List.mem_append_right _ hc', hf'⟩
    · rw [← hs'] at hd
      exact .inr ⟨hk, hv, hd, c, List.mem_append_left _ hc, hf⟩
    · refine .inr ⟨by omega, hv, ?_, c, List.mem_append_left _ hc, hf⟩
      rw [Int.natCast_add, Int.add_mul]
      exact hd.trans hd'

end Spent

variable {topic : String} {e : OrderCreated} {m : Message} {d d' : Depot} {cs : List Call}

/-- Calls that touch neither stock nor orders spend nothing. -/
private theorem spent_nothing (hb : Booked d cs d') (unput : ∀ c ∈ cs, c.writesStock = false)
    (unwritten : ∀ c ∈ cs, c.writesOrders = false) (untold : ∀ now, e.telling topic now true ∉ cs) :
    Spent topic e d 0 cs d' := by
  have horders := (hb.orders_of_not_writes unwritten).1
  exact
    { booked := hb
      count := countP_puts_eq_zero unput
      untold := untold
      ids := by rw [horders]
      effect := .inl ⟨rfl, hb.stock_of_not_writes unput, horders⟩ }

/-- Stock was taken for the order, and what came behind that failed. -/
private theorem spent_once {s : Snapshot} {left : Int64} {rest : List Call} (covered : e.Covered d s left)
    (hb : Booked d (e.taking left ++ rest) d') (putless : Putless rest) (storeless : Storeless rest)
    (untold : ∀ now, e.telling topic now true ∉ rest)
    (broken : ∃ c ∈ rest, c = .markNewOrder e.orderId none ∨ c = e.telling topic d.supply.now false) :
    Spent topic e d 1 (e.taking left ++ rest) d' := by
  obtain ⟨c, hc, hbroken⟩ := broken
  refine ⟨hb, ?_, ?_, hb.ids_of_storeless ?_, .inr ⟨Nat.one_pos, ⟨s, left, covered⟩, ?_, c, ?_, hbroken⟩⟩
  · rw [List.countP_append, countP_puts_eq_zero putless.not_writesStock]
    simp [OrderCreated.taking, Call.puts]
  · intro now hm
    rcases List.mem_append.1 hm with hm | hm
    · simp [OrderCreated.taking, OrderCreated.telling] at hm
    · exact untold now hm
  · intro draft id hm
    rcases List.mem_append.1 hm with hm | hm
    · simp [OrderCreated.taking] at hm
    · exact storeless draft id hm
  · rw [Int.natCast_one, Int.one_mul]
    exact covered.drawn hb putless
  · exact List.mem_append_right _ hc

/-- One failed attempt takes stock once or not at all. -/
theorem Finalizing.spent {f : Failure} (h : Finalizing topic e d (.error f) cs) (hb : Booked d cs d') :
    ∃ k ≤ 1, Spent topic e d k cs d' := by
  cases h with
  | unanswered =>
    refine ⟨0, Nat.zero_le 1, spent_nothing hb ?_ ?_ ?_⟩ <;>
      simp [Call.writesStock, Call.writesOrders, OrderCreated.telling]
  | notPut =>
    refine ⟨0, Nat.zero_le 1, spent_nothing hb ?_ ?_ ?_⟩ <;>
      simp [Call.writesStock, Call.writesOrders, OrderCreated.telling]
  | notMoved covered =>
    refine ⟨1, Nat.le_refl 1, spent_once covered hb ?_ ?_ ?_ ⟨_, List.mem_singleton_self _, .inl rfl⟩⟩ <;>
      simp [Putless, Storeless, OrderCreated.telling]
  | notTold covered =>
    refine ⟨1, Nat.le_refl 1, spent_once covered hb ?_ ?_ ?_ ⟨e.telling topic d.supply.now false, ?_, .inr rfl⟩⟩ <;>
      simp [Putless, Storeless, OrderCreated.telling]

theorem failed_spent {n : Nat} (hp : Json.Record.parse m.payload = .ok e)
    (hf : Handler.Failed (finalizer topic) m n d d') : ∃ k cs, k ≤ n ∧ Spent topic e d k cs d' := by
  induction hf with
  | none d => exact ⟨0, [], Nat.le_refl 0, .refl topic e d⟩
  | @more n d d₁ d₂ f first _ ih =>
    obtain ⟨k', cs', hk', hs'⟩ := ih
    rcases finalizer_cases topic d m with ⟨fault, hp', -⟩ | ⟨e', r, d', cs, hp', -, hc, hb, hr⟩
    · rw [hp] at hp'
      cases hp'
    · rw [hp] at hp'
      cases hp'
      rw [hr, Prod.mk.injEq] at first
      obtain ⟨hr, rfl⟩ := first
      cases r with
      | ok _ => cases hr
      | error f' =>
        obtain ⟨k, hk, hs⟩ := hc.spent hb
        exact ⟨k + k', cs ++ cs', by omega, hs.trans hs'⟩

/-- Earlier attempts took stock for an order and failed behind that, and what they left is too little for the last. -/
structure Stranded (n : Nat) (topic : String) (m : Message) (e : OrderCreated) (d : Depot) (cs : List Call)
    (d' : Depot) : Prop where
  attempts : ∃ k d₁ available, 0 < k ∧ k < max 1 n ∧ Handler.Failed (finalizer topic) m k d d₁ ∧
    finalize topic e d₁ = (.ok (.onHold available), d')
  covered : ∃ s left, e.Covered d s left
  broken : ∃ c ∈ cs, c = .markNewOrder e.orderId none ∨ c = e.telling topic d.supply.now false
  untold : e.telling topic d.supply.now true ∉ cs
  taken : 0 < cs.countP (·.puts e.hubId e.skuId)
  drawn : Drawn e.hubId e.skuId (cs.countP (·.puts e.hubId e.skuId) * e.quantity.toInt) d.stock d'.stock
  changed : d'.stock ≠ d.stock
  short : ∃ s, d'.records e.hubId e.skuId = [s] ∧ s.after? .onHandLessReserved e.quantity.toInt64 = none

/-- An attempt that finds too little, after `k` others that took stock and failed. -/
private theorem Spent.stranded {n k n' : Nat} {d₁ : Depot} {available : Int} {s : Snapshot}
    (h : Spent topic e d k cs d₁) (hf : Handler.Failed (finalizer topic) m n' d d₁) (hn : k ≤ n') (hn' : n' < max 1 n)
    (hk : 0 < k) (hb : Booked d₁ [.lookup e.hubId e.skuId (some 1)] d')
    (hr : finalize topic e d₁ = (.ok (.onHold available), d')) (record : d₁.records e.hubId e.skuId = [s])
    (short : s.after? .onHandLessReserved e.quantity.toInt64 = none) :
    Stranded n topic m e d (cs ++ [.lookup e.hubId e.skuId (some 1)]) d' := by
  have hstock : d'.stock = d₁.stock := hb.stock_eq
  have hcount : (cs ++ [Call.lookup e.hubId e.skuId (some 1)]).countP (·.puts e.hubId e.skuId) = k := by
    rw [List.countP_append, h.count]
    rfl
  rcases h.effect with ⟨rfl, -⟩ | ⟨-, ⟨s₀, left, hv⟩, hd, c, hc, hbroken⟩
  · omega
  refine ⟨⟨n', d₁, available, by omega, hn', hf, hr⟩, ⟨s₀, left, hv⟩, ⟨c, List.mem_append_left _ hc, hbroken⟩, ?_,
    ?_, ?_, ?_, ⟨s, ?_, short⟩⟩
  · rw [List.mem_append, List.mem_singleton]
    rintro (hm | hm)
    · exact h.untold _ hm
    · cases hm
  · rw [hcount]
    exact hk
  · rw [hcount, hstock]
    exact hd
  · -- the record allowed the quantity at first, and does not in the end
    intro he
    have hs := hv.record
    unfold Depot.records at hs record
    rw [← he, hstock, record] at hs
    have := hv.enough
    rw [← (List.cons.inj hs).1, short] at this
    cases this
  · rw [← record]
    unfold Depot.records
    rw [hstock]

/-- A record from which stock was taken is still the only one, so where it is missing nothing has been taken. -/
private theorem Spent.untouched {k : Nat} {d₁ : Depot} (h : Spent topic e d k cs d₁)
    (missing : (d₁.records e.hubId e.skuId).length ≠ 1) : d₁.stock = d.stock ∧ d₁.orders = d.orders := by
  rcases h.effect with ⟨-, hs, ho⟩ | ⟨-, -, ⟨s, left, hr, -, hs⟩, -⟩
  · exact ⟨hs, ho⟩
  · exfalso
    unfold Depot.records at missing
    rw [hs, Depot.filter_putOnHand_self hr] at missing
    exact missing rfl

/-- Once the store was told to move an order whose identifier no other has, that order is not on hold. -/
private theorem not_isOnHold_of_told {left : Int64} {told : Bool} (unique : (d.orders.map (·.id)).count e.orderId ≤ 1)
    (hb : Booked d (e.taking left ++
      [.markNewOrder e.orderId (some (d.holds e.orderId)), e.telling topic d.supply.now told]) d') :
    ∀ o ∈ d'.orders, o.id = e.orderId → o.isOnHold = false := by
  rw [orders_of_moving hb]
  exact Depot.not_isOnHold_moveOrder unique

/-- What is no announcement is passed over at the first attempt. -/
private theorem not_failed_of_error {n : Nat} {fault : Json.Fault} {d₁ : Depot}
    (hp : (Json.Record.parse m.payload : Except Json.Fault OrderCreated) = .error fault)
    (hf : Handler.Failed (finalizer topic) m n d d₁) : d₁ = d := by
  cases hf with
  | none => rfl
  | more first _ =>
    exfalso
    rcases finalizer_cases topic d m with ⟨_, _, hr⟩ | ⟨e, _, _, _, hp', _⟩
    · rw [first] at hr
      cases hr
    · rw [hp] at hp'
      cases hp'

/-- An announcement that is handled in the end has had its update told, or has changed nothing, or is stranded. -/
theorem retried_finalizer_ok {n : Nat} (h : Handler.retried n (finalizer topic) m d = (.ok (), d')) :
    ∃ cs, d'.calls = d.calls ++ cs ∧
      ((∃ e : OrderCreated, Json.Record.parse m.payload = .ok e ∧ e.telling topic d.supply.now true ∈ cs ∧
          ((d.orders.map (·.id)).count e.orderId ≤ 1 → ∀ o ∈ d'.orders, o.id = e.orderId → o.isOnHold = false)) ∨
        (d'.stock = d.stock ∧ d'.orders = d.orders) ∨
        ∃ e : OrderCreated, Json.Record.parse m.payload = .ok e ∧ Stranded n topic m e d cs d') := by
  obtain ⟨n', d₁, hn', hf, he⟩ := Handler.retried_cases n (finalizer topic) m d
  rw [h] at he
  cases he with
  | succeeded last =>
    rcases finalizer_cases topic d₁ m with ⟨fault, hp, hr⟩ | ⟨e, r, d₂, cs', hp, hz, hc, hb, hr⟩
    · rw [last, Prod.mk.injEq] at hr
      obtain ⟨-, rfl⟩ := hr
      rw [not_failed_of_error hp hf]
      exact ⟨[], (List.append_nil _).symm, .inr (.inl ⟨rfl, rfl⟩)⟩
    · rw [last, Prod.mk.injEq] at hr
      obtain ⟨hr, rfl⟩ := hr
      obtain ⟨k, cs, hk, hs⟩ := failed_spent hp hf
      have hcalls := (hs.booked.trans hb).calls
      cases hc with
      | unanswered => cases hr
      | notPut => cases hr
      | notMoved => cases hr
      | notTold => cases hr
      | noRecord missing =>
        obtain ⟨hst, ho⟩ := hs.untouched missing
        exact ⟨_, hcalls, .inr (.inl ⟨hb.stock_eq.trans hst, hb.orders_eq.trans ho⟩)⟩
      | onHold record short =>
        rcases Nat.eq_zero_or_pos k with rfl | hpos
        · rcases hs.effect with ⟨-, hst, ho⟩ | ⟨hpos, -⟩
          · exact ⟨_, hcalls, .inr (.inl ⟨hb.stock_eq.trans hst, hb.orders_eq.trans ho⟩)⟩
          · omega
        · exact ⟨_, hcalls, .inr (.inr ⟨e, hp, hs.stranded hf hk hn' hpos hb hz record short⟩)⟩
      | finalized covered =>
        refine ⟨_, hcalls, .inl ⟨e, hp, ?_, ?_⟩⟩
        · rw [← hs.booked.supply]
          simp
        · intro unique
          rw [← hs.ids] at unique
          exact not_isOnHold_of_told unique hb

/-! ### An order that is stranded -/

def newYear : Instant := ⟨⟨2024, 1, 1, by decide⟩, 0, 0, by decide⟩

/-- An order of six pieces. -/
def orderOfSix : Order where
  id := ⟨List.replicate 32 ⟨0, by decide⟩, by decide⟩
  tenantId := "t1"
  sellerId := "s1"
  hubId := "h1"
  skuId := "k1"
  quantity := 6
  status := OrderStatus.onHold.name
  createdAt := newYear
  updatedAt := newYear

/-- The order of six on hold, ten pieces on hand, and a store whose next status update fails. -/
def depotOfTen : Depot :=
  { Depot.opened ⟨newYear, fun _ => (orderOfSix.id, newYear), fun _ => orderOfSix.id⟩ with
    stock := [⟨"h1", "k1", 10, 0, none⟩]
    orders := [orderOfSix]
    marks := ⟨false, 1, []⟩ }

def announcementOfSix : Message where
  topic := Topic.orderCreated
  key := some orderOfSix.id.render
  payload := Json.Record.encode orderOfSix.createdEvent

def handlingOfSix : Except Failure Unit × Depot :=
  Handler.retried 3 (finalizer Topic.orderUpdated) announcementOfSix depotOfTen

private theorem eq_ok_of_isOk {r : Except Failure Unit} (h : r.isOk = true) : r = .ok () := by
  cases r with
  | error f => cases h
  | ok u => rfl

/-- Stock is taken at the first attempt, whose status update fails, and is too little for the second. The announcement
counts as handled, nothing is told, and the order stays on hold. -/
theorem finalizer_strands_order :
    handlingOfSix.1 = .ok () ∧ depotOfTen.onHand? "h1" "k1" = some 10 ∧ handlingOfSix.2.onHand? "h1" "k1" = some 4 ∧
      handlingOfSix.2.orders = depotOfTen.orders ∧ handlingOfSix.2.bus.published = [] :=
  ⟨eq_ok_of_isOk (by decide +kernel), by decide, by decide +kernel, by decide +kernel, by decide +kernel⟩

theorem retried_finalizer_ok_of_six :
    handlingOfSix = (.ok (), handlingOfSix.2) ∧
      ∃ cs, handlingOfSix.2.calls = depotOfTen.calls ++ cs ∧
        ((∃ e : OrderCreated, Json.Record.parse announcementOfSix.payload = .ok e ∧
            e.telling Topic.orderUpdated depotOfTen.supply.now true ∈ cs ∧
            ((depotOfTen.orders.map (·.id)).count e.orderId ≤ 1 →
              ∀ o ∈ handlingOfSix.2.orders, o.id = e.orderId → o.isOnHold = false)) ∨
          (handlingOfSix.2.stock = depotOfTen.stock ∧ handlingOfSix.2.orders = depotOfTen.orders) ∨
          ∃ e : OrderCreated, Json.Record.parse announcementOfSix.payload = .ok e ∧
            Stranded 3 Topic.orderUpdated announcementOfSix e depotOfTen cs handlingOfSix.2) :=
  have h : handlingOfSix = (.ok (), handlingOfSix.2) := Prod.ext (eq_ok_of_isOk (by decide +kernel)) rfl
  ⟨h, retried_finalizer_ok h⟩

end Fulfilment
