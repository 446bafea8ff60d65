import Fulfilment.Proofs.Depot.Orders
import Fulfilment.Proofs.Order.Acceptance
import Fulfilment.Proofs.Order.Pipeline

/-!
# The life of an order

However long a run is: an order that is inserted is sound and on hold, keeps its place among the orders, and either
stays as it is or is moved once, by an attempt to finalize it that has put stock (`Depot.run_orders`). What a single
deed does to the orders is `Deed.Effect`; the course of an order through a history is `Course`.
-/

namespace Fulfilment

open Depot (Booked)

/-- The figure of the article of an order was put, in the name of its tenant. -/
def OrderCreated.Took (e : OrderCreated) (cs : List Call) : Prop :=
  ∃ left, .setOnHand ⟨e.tenantId, e.hubId, e.skuId, left⟩ true ∈ cs

/-- What a deed of the services does to the orders: nothing, or it stores one that is sound, or it moves one. -/
inductive Deed.Effect (supply : Supply) (orders : List Order) (deed : Deed) (cs : List Call) : List Order → Prop
  | same (storeless : Storeless cs) : Effect supply orders deed cs orders
  | stored {draft : Draft} {id : Uuid} (time : Instant) (sound : (draft.order id time).Sound)
      (held : draft.status = OrderStatus.onHold.name)
      (only : ∀ draft' id', .insert draft' (some id') ∈ cs → draft' = draft ∧ id' = id) :
    Effect supply orders deed cs (orders ++ [draft.order id time])
  | moved {event : OrderCreated} {orders' : List Order} (storeless : Storeless cs) (attempt : deed = .finalize event)
      (took : event.Took cs) (moved : Depot.moveOrder event.orderId supply.now orders = some orders') :
    Effect supply orders deed cs orders'

section

variable {d d' : Depot} {cs : List Call}

private theorem effect_of_storing {topic : String} {r : OrderRequest} {told : Bool} {deed : Deed}
    (sound : ∀ id time, (r.draft.order id time).Sound) (cs : List Call)
    (h : Booked d (cs ++ r.storing topic d told) d') (hc : ∀ c ∈ cs, c.writesOrders = false) :
    deed.Effect d.supply d.orders (cs ++ r.storing topic d told) d'.orders := by
  rw [orders_of_storing h hc]
  refine .stored _ (sound _ _) rfl ?_
  intro draft id hm
  rcases List.mem_append.1 hm with hm | hm
  · exact absurd hm (storeless_of_not_writes hc draft id)
  · simp only [OrderRequest.storing, Order.announcing, List.mem_cons, List.not_mem_nil, or_false] at hm
    rcases hm with hm | hm
    · cases hm
      exact ⟨rfl, rfl⟩
    · cases hm

private theorem effect_of_not_writes {deed : Deed} (h : Booked d cs d') (hc : ∀ c ∈ cs, c.writesOrders = false) :
    deed.Effect d.supply d.orders cs d'.orders := by
  rw [(h.orders_of_not_writes hc).1]
  exact .same (storeless_of_not_writes hc)

private theorem effect_of_creating {topic : String} {request : OrderRequest} {deed : Deed}
    {r : Except IntakeError Uuid} (h : Creating topic request d r cs) (hb : Booked d cs d') :
    deed.Effect d.supply d.orders cs d'.orders := by
  cases h with
  | invalid => exact effect_of_not_writes hb fun c hc => by cases hc
  | notReserved _ reserving => exact effect_of_not_writes hb reserving.not_writesOrders
  | insufficient _ reserving => exact effect_of_not_writes hb reserving.not_writesOrders
  | notStored _ reserving =>
    refine effect_of_not_writes hb ?_
    intro c hc
    rcases List.mem_append.1 hc with hc | hc
    · exact reserving.not_writesOrders c hc
    · rw [List.mem_singleton.1 hc]
      rfl
  | stored told valid reserving =>
    exact effect_of_storing (OrderRequest.sound_of_validate request.trimmed_trimmed valid) _ hb
      reserving.not_writesOrders

private theorem effect_of_storingRow {topic : String} {r : OrderRequest} {deed : Deed} {res : Except RowError Unit}
    (sound : ∀ id time, (r.draft.order id time).Sound) (h : StoringRow topic r d res cs) (hb : Booked d cs d') :
    deed.Effect d.supply d.orders cs d'.orders := by
  cases h with
  | notStored =>
    refine effect_of_not_writes hb ?_
    intro c hc
    rw [List.mem_singleton.1 hc]
    rfl
  | notTold => exact effect_of_storing sound [] hb fun c hc => by cases hc
  | stored => exact effect_of_storing sound [] hb fun c hc => by cases hc

/-- The calls of an attempt that has put stock and told the store to move the order. -/
private theorem effect_of_moving {e : OrderCreated} {topic : String} {left : Int64} {told : Bool}
    (hb : Booked d (e.taking left ++
      [.markNewOrder e.orderId (some (d.holds e.orderId)), e.telling topic d.supply.now told]) d') :
    (Deed.finalize e).Effect d.supply d.orders
      (e.taking left ++ [.markNewOrder e.orderId (some (d.holds e.orderId)), e.telling topic d.supply.now told])
      d'.orders := by
  rw [orders_of_moving hb]
  unfold Depot.holds
  cases hm : Depot.moveOrder e.orderId d.supply.now d.orders with
  | none => exact .same (by simp [Storeless, OrderCreated.taking, OrderCreated.telling])
  | some orders' =>
    refine .moved (by simp [Storeless, OrderCreated.taking, OrderCreated.telling]) rfl ⟨left, ?_⟩ hm
    simp [OrderCreated.taking]

private theorem effect_of_finalizing {e : OrderCreated} {topic : String} {r : Except Failure Finalization}
    (h : Finalizing topic e d r cs) (hb : Booked d cs d') :
    (Deed.finalize e).Effect d.supply d.orders cs d'.orders := by
  cases h with
  | unanswered => exact effect_of_not_writes hb (by simp [Call.writesOrders])
  | noRecord => exact effect_of_not_writes hb (by simp [Call.writesOrders])
  | onHold => exact effect_of_not_writes hb (by simp [Call.writesOrders])
  | notPut => exact effect_of_not_writes hb (by simp [Call.writesOrders])
  | notMoved => exact effect_of_not_writes hb (by simp [Call.writesOrders, OrderCreated.taking])
  | notTold => exact effect_of_moving hb
  | finalized => exact effect_of_moving hb

/-- What the services do has one of the effects that a deed may have. -/
theorem Deed.Did.effect {s : OrderSettings} {deed : Deed} (h : deed.Did s d cs d') (hs : deed.OfService) :
    deed.Effect d.supply d.orders cs d'.orders := by
  cases h with
  | create run fared booked => exact effect_of_creating fared booked
  | finalize run fared booked => exact effect_of_finalizing fared booked
  | row parsed run fared booked => exact effect_of_storingRow (Columns.sound_of_parse parsed) fared booked
  | mark => exact absurd hs id
  | other booked aside =>
    refine effect_of_not_writes booked ?_
    intro c hc
    have := aside c hc
    unfold Call.isAside at this
    split at this <;> first | rfl | cases this

end

/-! ### The course of an order -/

/-- The order stands at a place throughout. -/
def Stands (i : Nat) (o : Order) (es : List Entry) : Prop :=
  ∀ x ∈ es, x.before.orders[i]? = some o ∧ x.after.orders[i]? = some o

/-- What becomes of an order at a place, up to the state `d'`: it stays as it is, or an attempt to finalize it moves
it to `new_order` and it stays so. -/
inductive Course (i : Nat) (o : Order) (es : List Entry) (d' : Depot) : Prop
  | still (stands : Stands i o es) (last : d'.orders[i]? = some o)
  | moved {es₁ es₂ : List Entry} {x : Entry} {event : OrderCreated} (split : es = es₁ ++ x :: es₂)
      (first : Stands i o es₁) (before : x.before.orders[i]? = some o) (held : o.status = OrderStatus.onHold.name)
      (attempt : x.deed = .finalize event) (names : event.orderId = o.id) (took : event.Took x.calls)
      (after : x.after.orders[i]? = some (o.moved x.before.supply.now))
      (rest : Stands i (o.moved x.before.supply.now) es₂) (last : d'.orders[i]? = some (o.moved x.before.supply.now))

section

variable {s : OrderSettings} {d d' : Depot} {es : List Entry} {i : Nat} {o : Order}

/-- An order keeps its place through a deed, and stays as it is unless it is moved by an attempt to finalize it. -/
theorem Deed.Effect.getElem? {supply : Supply} {orders orders' : List Order} {deed : Deed} {cs : List Call}
    (h : deed.Effect supply orders cs orders') (ho : orders[i]? = some o) :
    orders'[i]? = some o ∨ ∃ event, deed = .finalize event ∧ event.orderId = o.id ∧ event.Took cs ∧
      o.isOnHold = true ∧ orders'[i]? = some (o.moved supply.now) := by
  cases h with
  | same => exact .inl ho
  | stored =>
    have hlt : i < orders.length := (List.getElem?_eq_some_iff.1 ho).1
    exact .inl ((List.getElem?_append_left hlt).trans ho)
  | @moved event orders' _ attempt took moved =>
    rcases Depot.getElem?_moveOrder moved ho with h | ⟨hid, hheld, h⟩
    · exact .inl h
    · exact .inr ⟨event, attempt, hid.symm, took, hheld, h⟩

/-- An order that is not on hold stays as it is. -/
theorem History.stands (h : History s d es d') (hs : ∀ x ∈ es, x.deed.OfService) (ho : d.orders[i]? = some o)
    (hheld : o.isOnHold = false) : Stands i o es ∧ d'.orders[i]? = some o := by
  induction h with
  | none => exact ⟨fun x hx => (by cases hx), ho⟩
  | more did later ih =>
    rw [List.forall_mem_cons] at hs
    rcases (did.effect hs.1).getElem? ho with h | ⟨_, _, _, _, hh, _⟩
    · obtain ⟨hst, hl⟩ := ih hs.2 h
      refine ⟨?_, hl⟩
      intro x hx
      rcases List.mem_cons.1 hx with rfl | hx
      · exact ⟨ho, h⟩
      · exact hst x hx
    · rw [hheld] at hh
      cases hh

theorem History.course (h : History s d es d') (hs : ∀ x ∈ es, x.deed.OfService) (ho : d.orders[i]? = some o) :
    Course i o es d' := by
  induction h with
  | none => exact .still (fun x hx => (by cases hx)) ho
  | @more d d₁ d₂ deed cs es did later ih =>
    rw [List.forall_mem_cons] at hs
    rcases (did.effect hs.1).getElem? ho with h | ⟨event, attempt, names, took, held, h⟩
    · have extend : ∀ {es'}, Stands i o es' → Stands i o (⟨d, deed, cs, d₁⟩ :: es') := by
        intro es' hst x hx
        rcases List.mem_cons.1 hx with rfl | hx
        · exact ⟨ho, h⟩
        · exact hst x hx
      cases ih hs.2 h with
      | still stands last => exact .still (extend stands) last
      | moved split first before held attempt names took after rest last =>
        refine .moved ?_ (extend first) before held attempt names took after rest last
        rw [split]
        rfl
    · -- from here on the order is not on hold
      obtain ⟨rest, last⟩ := later.stands hs.2 h (o.isOnHold_moved _)
      have split : ⟨d, deed, cs, d₁⟩ :: es = [] ++ ⟨d, deed, cs, d₁⟩ :: es := rfl
      exact .moved split (fun x hx => (by cases hx)) ho (beq_iff_eq.1 held) attempt names took h rest last

/-- What it is for an order to be inserted in the course of a history and to live on to its end. -/
structure Lives (x : Entry) (draft : Draft) (id : Uuid) (later : List Entry) (d' : Depot) (o : Order) : Prop where
  drafted : ∃ time, o = draft.order id time
  sound : o.Sound
  held : o.status = OrderStatus.onHold.name
  inserted : x.after.orders = x.before.orders ++ [o]
  course : Course x.before.orders.length o later d'

theorem History.lives (h : History s d es d') (hs : ∀ x ∈ es, x.deed.OfService) {es₁ es₂ : List Entry} {x : Entry}
    (hx : es = es₁ ++ x :: es₂) {draft : Draft} {id : Uuid} (hc : .insert draft (some id) ∈ x.calls) :
    ∃ o, Lives x draft id es₂ d' o := by
  rw [hx] at h
  obtain ⟨-, did, later⟩ := h.split
  have hsx : x.deed.OfService := hs x (by rw [hx]; simp)
  have hs₂ : ∀ y ∈ es₂, y.deed.OfService := fun y hy => hs y (by rw [hx]; simp [hy])
  have effect := did.effect hsx
  generalize ho : x.after.orders = orders' at effect
  cases effect with
  | same storeless => exact absurd hc (storeless draft id)
  | moved storeless => exact absurd hc (storeless draft id)
  | @stored draft' id' time sound held only =>
    -- the call that stored the order is the only one of its kind in the deed
    obtain ⟨rfl, rfl⟩ := only draft id hc
    have hplace : x.after.orders[x.before.orders.length]? = some (draft.order id time) := by
      rw [ho]
      exact List.getElem?_concat_length
    exact ⟨_, ⟨time, rfl⟩, sound, held, ho, later.course hs₂ hplace⟩

end

/-- Every order that is inserted in the course of a run is sound and on hold, and has one place for the rest of the
run. There it stays as it is, or is moved once, by an attempt to finalize it that has put stock. -/
theorem Depot.run_orders (s : OrderSettings) (d : Depot) (commands : List Command)
    (unmarked : ∀ id, .mark id ∉ commands) :
    ∃ es, History s d es (d.run s commands) ∧ (d.run s commands).calls = d.calls ++ es.flatMap (·.calls) ∧
      ∀ es₁ x es₂, es = es₁ ++ x :: es₂ → ∀ draft id, .insert draft (some id) ∈ x.calls →
        ∃ o, Lives x draft id es₂ (d.run s commands) o := by
  obtain ⟨es, h, hs⟩ := Depot.run_history s d commands
  exact ⟨es, h, h.booked.calls, fun _ _ _ hx _ _ hc => h.lives (hs unmarked) hx hc⟩

def morning : Instant := ⟨⟨2024, 6, 3, by decide⟩, 28800, 0, by decide⟩

def someId : Uuid := ⟨List.replicate 32 ⟨1, by decide⟩, by decide⟩

/-- Ten pieces of an article, and no orders. -/
def tenPieces : Depot :=
  { Depot.opened ⟨morning, fun _ => (someId, morning), fun _ => someId⟩ with stock := [⟨"h1", "k1", 10, 0, none⟩] }

/-- A service that attempts a message twice. -/
def twoAttempts : OrderSettings where
  createdTopic := Topic.orderCreated
  updatedTopic := Topic.orderUpdated
  bulkTopic := Topic.bulkOrders
  retryAttempts := 2
  verifyInventory := false
  bulkMaxBytes := 1000
  uploadBucket := none
  maxUploadBytes := 1000

/-- Four pieces are ordered, by a seller written with a blank, and the announcement is handled. -/
def fourOrdered : List Command := [.create ⟨"t1", " s1", "h1", "k1", 4⟩, .pump]

theorem run_orders_of_four :
    (∀ id, .mark id ∉ fourOrdered) ∧
      (tenPieces.run twoAttempts fourOrdered).orders.map (fun o => (o.sellerId, o.status)) = [("s1", "new_order")] ∧
      ∃ es, History twoAttempts tenPieces es (tenPieces.run twoAttempts fourOrdered) ∧
        (tenPieces.run twoAttempts fourOrdered).calls = tenPieces.calls ++ es.flatMap (·.calls) ∧
        ∀ es₁ x es₂, es = es₁ ++ x :: es₂ → ∀ draft id, .insert draft (some id) ∈ x.calls →
          ∃ o, Lives x draft id es₂ (tenPieces.run twoAttempts fourOrdered) o := by
  have unmarked : ∀ id, Command.mark id ∉ fourOrdered := by simp [fourOrdered]
  exact ⟨unmarked, by decide +kernel, Depot.run_orders twoAttempts tenPieces fourOrdered unmarked⟩

end Fulfilment
