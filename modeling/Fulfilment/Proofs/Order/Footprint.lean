import Fulfilment.Proofs.Order.Finalization

/-!
# The footprint of an announcement

What attempts to finalize an order leave behind, all taken together: its quantity is drawn once for each time that the
figure was put, orders are moved only if they were on hold under its identifier, and nothing is told but that it was
finalized (`Footprint`). One attempt puts at most one figure, moves at most one order and tells at most once, and does
not tell at all if it fails (`Finalizing.footprint`, `Finalizing.countP_publishes`). So the update is told at most
once in all attempts, and no more figures are put than attempts are made (`retried_finalizer_footprint`). Where
several orders on hold have the identifier, each attempt may move another of them: `finalizer_moves_twins`.
-/

namespace Fulfilment

open Depot (Booked Drawn DrawnTimes)

/-- The update has what the announcement says of the order, which it calls new. -/
structure OrderUpdated.Finalizes (u : OrderUpdated) (e : OrderCreated) : Prop where
  orderId : u.orderId = e.orderId
  tenantId : u.tenantId = e.tenantId
  sellerId : u.sellerId = e.sellerId
  hubId : u.hubId = e.hubId
  skuId : u.skuId = e.skuId
  quantity : u.quantity = e.quantity
  status : u.status = .newOrder
  createdAt : u.createdAt = e.createdAt

/-- What calls have done for an order: its quantity was drawn `k` times, and `j` orders were moved. -/
structure Footprint (topic : String) (e : OrderCreated) (d : Depot) (k j : Nat) (cs : List Call) (d' : Depot) :
    Prop where
  booked : Booked d cs d'
  puts : cs.countP (·.writesStock) = k
  stock : DrawnTimes e.hubId e.skuId e.quantity.toInt k d.stock d'.stock
  orders : Depot.Moved e.orderId d.supply.now j d.orders d'.orders
  published : ∀ topic' key payload, .publish topic' key payload true ∈ cs →
    0 < k ∧ topic' = topic ∧ key = e.orderId.render ∧
      ∃ u : OrderUpdated, payload = Json.Record.encode u ∧ u.Finalizes e

section

variable {topic : String} {e : OrderCreated} {m : Message} {d d₁ d₂ d' : Depot} {k k' j j' : Nat} {cs cs' : List Call}

theorem Footprint.trans (h : Footprint topic e d k j cs d₁) (h' : Footprint topic e d₁ k' j' cs' d₂) :
    Footprint topic e d (k + k') (j + j') (cs ++ cs') d₂ where
  booked := h.booked.trans h'.booked
  puts := by rw [List.countP_append, h.puts, h'.puts]
  stock := h.stock.trans h'.stock
  orders := by
    have later := h'.orders
    rw [h.booked.supply] at later
    exact h.orders.trans later
  published := by
    intro topic' key payload hc
    rcases List.mem_append.1 hc with hc | hc
    · obtain ⟨hk, hsays⟩ := h.published topic' key payload hc
      exact ⟨by omega, hsays⟩
    · obtain ⟨hk, hsays⟩ := h'.published topic' key payload hc
      exact ⟨by omega, hsays⟩

/-- Calls that change neither stock nor orders and publish nothing leave nothing behind. -/
private theorem Footprint.of_idle (hb : Booked d cs d') (unput : ∀ c ∈ cs, c.writesStock = false)
    (unwritten : ∀ c ∈ cs, c.writesOrders = false)
    (untold : ∀ topic' key payload, .publish topic' key payload true ∉ cs) : Footprint topic e d 0 0 cs d' where
  booked := hb
  puts := List.countP_eq_zero.2 fun c hc => by rw [unput c hc]; decide
  stock := .inl ⟨rfl, hb.stock_of_not_writes unput⟩
  orders := by
    rw [(hb.orders_of_not_writes unwritten).1]
    exact .refl ..
  published topic' key payload hc := absurd hc (untold topic' key payload)

/-- Stock was taken for the order, and then at most its update was told. -/
private theorem Footprint.of_taking {s : Snapshot} {left : Int64} {rest : List Call} (covered : e.Covered d s left)
    (hb : Booked d (e.taking left ++ rest) d') (putless : Putless rest)
    (told : ∀ topic' key payload, .publish topic' key payload true ∈ rest →
      .publish topic' key payload true = e.telling topic d.supply.now true)
    (moved : Depot.Moved e.orderId d.supply.now j d.orders d'.orders) :
    Footprint topic e d 1 j (e.taking left ++ rest) d' where
  booked := hb
  puts := by
    have hrest : rest.countP (·.writesStock) = 0 :=
      List.countP_eq_zero.2 fun c hc => by rw [putless.not_writesStock c hc]; decide
    rw [List.countP_append, hrest]
    rfl
  stock := by
    refine .inr ⟨Nat.one_pos, ?_⟩
    rw [Int.natCast_one, Int.one_mul]
    exact covered.drawn hb putless
  orders := moved
  published := by
    intro topic' key payload hc
    rcases List.mem_append.1 hc with hc | hc
    · simp [OrderCreated.taking] at hc
    · have same := told topic' key payload hc
      cases same
      exact ⟨Nat.one_pos, rfl, rfl, e.finalized d.supply.now, rfl, rfl, rfl, rfl, rfl, rfl, rfl, rfl, rfl⟩

/-- One attempt puts at most one figure and moves at most one order. -/
theorem Finalizing.footprint {r : Except Failure Finalization} (h : Finalizing topic e d r cs) (hb : Booked d cs d') :
    ∃ k ≤ 1, ∃ j ≤ 1, Footprint topic e d k j cs d' := by
  have idle (unput : ∀ c ∈ cs, c.writesStock = false) (unwritten : ∀ c ∈ cs, c.writesOrders = false)
      (untold : ∀ topic' key payload, .publish topic' key payload true ∉ cs) :
      ∃ k ≤ 1, ∃ j ≤ 1, Footprint topic e d k j cs d' :=
    ⟨0, Nat.zero_le 1, 0, Nat.zero_le 1, .of_idle hb unput unwritten untold⟩
  cases h with
  | unanswered => apply idle <;> simp [Call.writesStock, Call.writesOrders]
  | noRecord => apply idle <;> simp [Call.writesStock, Call.writesOrders]
  | onHold => apply idle <;> simp [Call.writesStock, Call.writesOrders]
  | notPut => apply idle <;> simp [Call.writesStock, Call.writesOrders]
  | notMoved covered =>
    refine ⟨1, Nat.le_refl 1, 0, Nat.zero_le 1, .of_taking covered hb (by simp [Putless]) (by simp) ?_⟩
    rw [(hb.orders_of_not_writes (by simp [OrderCreated.taking, Call.writesOrders])).1]
    exact .refl ..
  | notTold covered =>
    obtain ⟨j, hj, moved⟩ := Depot.moved_moveOrder e.orderId d.supply.now d.orders
    rw [← orders_of_moving hb] at moved
    refine ⟨1, Nat.le_refl 1, j, hj, .of_taking covered hb ?_ ?_ moved⟩
    · simp [Putless, OrderCreated.telling]
    · simp [OrderCreated.telling]
  | finalized covered =>
    obtain ⟨j, hj, moved⟩ := Depot.moved_moveOrder e.orderId d.supply.now d.orders
    rw [← orders_of_moving hb] at moved
    refine ⟨1, Nat.le_refl 1, j, hj, .of_taking covered hb ?_ ?_ moved⟩
    · simp [Putless, OrderCreated.telling]
    · simp [OrderCreated.telling]

/-- One attempt tells at most once, and not at all if it fails. -/
theorem Finalizing.countP_publishes {r : Except Failure Finalization} (h : Finalizing topic e d r cs) :
    cs.countP (·.publishes topic) ≤ 1 ∧ (r.isOk = false → cs.countP (·.publishes topic) = 0) := by
  cases h <;> simp [OrderCreated.taking, OrderCreated.telling, Call.publishes, Except.isOk, Except.toBool]

end

/-! ### All attempts -/

/-- What was attempted at an announcement: the attempts and their calls, by which figures were put `k` times and `j`
orders were moved. -/
structure Footprints (topic : String) (m : Message) (e : OrderCreated) (d : Depot)
    (xs : List (Handler.Attempt Depot × List Call)) (k j : Nat) (d' : Depot) : Prop where
  attempted : Handler.Attempted (finalizer topic) m d (xs.map (·.1)) d'
  each : ∀ x ∈ xs, ∃ k' ≤ 1, ∃ j' ≤ 1, Footprint topic e x.1.before k' j' x.2 x.1.after
  all : Footprint topic e d k j (xs.flatMap (·.2)) d'
  puts : k ≤ xs.length
  moves : j ≤ xs.length
  /-- In all attempts the update is told at most once. -/
  told : (xs.flatMap (·.2)).countP (·.publishes topic) ≤ 1

section

variable {topic : String} {e : OrderCreated} {m : Message} {d d' : Depot}

/-- An attempt at an announcement is an attempt to finalize its order. -/
private theorem finalizer_footprint {r : Except Failure Unit} (hp : Json.Record.parse m.payload = .ok e)
    (run : finalizer topic m d = (r, d')) :
    ∃ cs, (∃ k ≤ 1, ∃ j ≤ 1, Footprint topic e d k j cs d') ∧
      cs.countP (·.publishes topic) ≤ 1 ∧ (r.isOk = false → cs.countP (·.publishes topic) = 0) := by
  rcases finalizer_cases topic d m with ⟨fault, hp', -⟩ | ⟨e', r', d₁, cs, hp', -, hc, hb, hr⟩
  · rw [hp] at hp'
    cases hp'
  · rw [hp] at hp'
    cases hp'
    rw [run] at hr
    cases hr
    have htold := hc.countP_publishes
    refine ⟨cs, hc.footprint hb, htold.1, ?_⟩
    cases r' with
    | error f => exact htold.2
    | ok u => exact fun h => by cases h

theorem footprints_of_attempted {as : List (Handler.Attempt Depot)} (hp : Json.Record.parse m.payload = .ok e)
    (h : Handler.Attempted (finalizer topic) m d as d') :
    ∃ xs k j, xs.map (·.1) = as ∧ Footprints topic m e d xs k j d' := by
  induction h with
  | @last d d' r run =>
    obtain ⟨cs, ⟨k, hk, j, hj, hone⟩, htold, -⟩ := finalizer_footprint hp run
    refine ⟨[(⟨d, r, d'⟩, cs)], k, j, rfl, .last run, ?_, ?_, hk, hj, ?_⟩
    · intro x hx
      rw [List.mem_singleton.1 hx]
      exact ⟨k, hk, j, hj, hone⟩
    · rw [List.flatMap_singleton]
      exact hone
    · rw [List.flatMap_singleton]
      exact htold
  | @again d d₁ d' f as failed later ih =>
    obtain ⟨cs, ⟨k, hk, j, hj, hone⟩, -, huntold⟩ := finalizer_footprint hp failed
    obtain ⟨xs, k', j', rfl, hxs⟩ := ih
    refine ⟨(⟨d, .error f, d₁⟩, cs) :: xs, k + k', j + j', rfl, .again failed hxs.attempted, ?_, ?_, ?_, ?_, ?_⟩
    · rw [List.forall_mem_cons]
      exact ⟨⟨k, hk, j, hj, hone⟩, hxs.each⟩
    · rw [List.flatMap_cons]
      exact hone.trans hxs.all
    · have := hxs.puts
      rw [List.length_cons]
      omega
    · have := hxs.moves
      rw [List.length_cons]
      omega
    · -- only the last attempt can have told anything, for this one has failed
      have := hxs.told
      rw [List.flatMap_cons, List.countP_append, huntold rfl]
      omega

/-- All attempts at an announcement together tell at most once, draw its quantity as often as they put a figure, and
move orders that were on hold under its identifier, each attempt at most one. What they tell is that its order is new,
under its identifier, and only when the quantity was drawn. -/
theorem retried_finalizer_footprint (topic : String) (n : Nat) (d : Depot)
    (hp : Json.Record.parse m.payload = .ok e) :
    ∃ xs k j, xs.length ≤ max 1 n ∧ k ≤ max 1 n ∧
      Footprints topic m e d xs k j (Handler.retried n (finalizer topic) m d).2 ∧
      j ≤ d.orders.countP fun o => o.id == e.orderId && o.isOnHold := by
  obtain ⟨as, has, hn⟩ := Handler.retried_attempted n (finalizer topic) m d
  obtain ⟨xs, k, j, rfl, hxs⟩ := footprints_of_attempted hp has
  rw [List.length_map] at hn
  have := hxs.puts
  exact ⟨xs, k, j, hn, by omega, hxs, hxs.all.orders.le_countP⟩

end

/-! ### Two orders of one identifier -/

def mayDay : Instant := ⟨⟨2024, 5, 1, by decide⟩, 36000, 0, by decide⟩

/-- An order of two pieces. -/
def orderOfTwo : Order where
  id := ⟨List.replicate 32 ⟨9, by decide⟩, by decide⟩
  tenantId := "t1"
  sellerId := "s1"
  hubId := "h1"
  skuId := "k1"
  quantity := 2
  status := OrderStatus.onHold.name
  createdAt := mayDay
  updatedAt := mayDay

/-- Two orders on hold that have one identifier, and a bus on which the next message is lost. -/
def depotOfTwins : Depot :=
  { Depot.opened ⟨mayDay, fun _ => (orderOfTwo.id, mayDay), fun _ => orderOfTwo.id⟩ with
    stock := [⟨"h1", "k1", 10, 0, none⟩]
    orders := [orderOfTwo, { orderOfTwo with tenantId := "t2" }]
    bus := { Bus.empty with outage := ⟨false, 1, []⟩ } }

def announcementOfTwo : Message where
  topic := Topic.orderCreated
  key := some orderOfTwo.id.render
  payload := Json.Record.encode orderOfTwo.createdEvent

def handlingOfTwins : Except Failure Unit × Depot :=
  Handler.retried 2 (finalizer Topic.orderUpdated) announcementOfTwo depotOfTwins

/-- The first attempt moves one of the two and cannot tell, and the second moves the other. -/
theorem finalizer_moves_twins :
    handlingOfTwins.1.isOk = true ∧ depotOfTwins.orders.map (·.status) = ["on_hold", "on_hold"] ∧
      handlingOfTwins.2.orders.map (·.status) = ["new_order", "new_order"] :=
  ⟨by decide +kernel, by decide, by decide +kernel⟩

theorem retried_finalizer_footprint_of_twins :
    Json.Record.parse announcementOfTwo.payload = .ok orderOfTwo.createdEvent ∧
      ∃ xs k j, xs.length ≤ max 1 2 ∧ k ≤ max 1 2 ∧
        Footprints Topic.orderUpdated announcementOfTwo orderOfTwo.createdEvent depotOfTwins
          xs k j handlingOfTwins.2 ∧
        j ≤ depotOfTwins.orders.countP fun o => o.id == orderOfTwo.createdEvent.orderId && o.isOnHold := by
  have hp : Json.Record.parse announcementOfTwo.payload = .ok orderOfTwo.createdEvent :=
    Program.eq_ok_of_toOption (by decide +kernel)
  exact ⟨hp, retried_finalizer_footprint Topic.orderUpdated 2 depotOfTwins hp⟩

end Fulfilment
