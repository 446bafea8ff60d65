import Fulfilment.Proofs.Depot.Orders

/-!
# The ledger

Stock and orders, and what each call does to them: the calls that were made tell all that became of both. A depot is
*booked* from another by a list of calls when it has made those calls since, and its ledger is what they make of the
ledger it had. Each operation of the depot books its one call, and tells by its result how that call went.
-/

namespace Fulfilment

structure Ledger where
  stock : List Snapshot
  orders : List Order
  /-- How many orders have been stored. -/
  inserted : Nat

/-- What a call makes of the ledger. Only figures put, orders stored and orders moved change it. -/
def Ledger.book (supply : Supply) (l : Ledger) : Call → Ledger
  | .setOnHand u true => { l with stock := Depot.putOnHand u.hubId u.skuId u.quantity l.stock }
  | .insert draft (some id) =>
    { l with
      orders := l.orders ++ [draft.order id (supply.order (l.inserted + 1)).2]
      inserted := l.inserted + 1 }
  | .markNewOrder id (some true) => { l with orders := (Depot.moveOrder id supply.now l.orders).getD l.orders }
  | _ => l

/-- Whether a call has put the figure of an article at a hub. -/
def Call.puts (hubId skuId : String) : Call → Bool
  | .setOnHand u true => u.hubId == hubId && u.skuId == skuId
  | _ => false

/-- Whether a call has changed stock. -/
def Call.writesStock : Call → Bool
  | .setOnHand _ true => true
  | _ => false

/-- Whether a call has stored or moved an order. -/
def Call.writesOrders : Call → Bool
  | .insert _ (some _) => true
  | .markNewOrder _ (some true) => true
  | _ => false

/-- Whether a call has published something under a topic. -/
def Call.publishes (topic : String) : Call → Bool
  | .publish topic' _ _ true => topic' == topic
  | _ => false

/-- No figure is put by these calls, and none is tried to. -/
def Putless (cs : List Call) : Prop := ∀ u ok, .setOnHand u ok ∉ cs

/-- No order is stored by these calls. -/
def Storeless (cs : List Call) : Prop := ∀ draft id, .insert draft (some id) ∉ cs

theorem Putless.not_writesStock {cs : List Call} (h : Putless cs) : ∀ c ∈ cs, c.writesStock = false := by
  intro c hc
  cases c with
  | setOnHand u ok => exact absurd hc (h u ok)
  | _ => rfl

theorem storeless_of_not_writes {cs : List Call} (h : ∀ c ∈ cs, c.writesOrders = false) : Storeless cs := by
  intro draft id hc
  cases h _ hc

theorem Call.writesStock_of_puts {hubId skuId : String} {c : Call} (h : c.puts hubId skuId = true) :
    c.writesStock = true := by
  unfold puts at h
  split at h
  · rfl
  · cases h

theorem countP_puts_eq_zero {hubId skuId : String} {cs : List Call} (h : ∀ c ∈ cs, c.writesStock = false) :
    cs.countP (·.puts hubId skuId) = 0 := by
  rw [List.countP_eq_zero]
  intro c hc hp
  have := h c hc
  rw [Call.writesStock_of_puts hp] at this
  cases this

namespace Ledger

variable {supply : Supply} {l : Ledger} {c : Call}

theorem book_stock (h : c.writesStock = false) : (l.book supply c).stock = l.stock := by
  unfold book
  split
  · cases h
  all_goals rfl

theorem book_orders (h : c.writesOrders = false) :
    (l.book supply c).orders = l.orders ∧ (l.book supply c).inserted = l.inserted := by
  unfold book
  split
  · exact ⟨rfl, rfl⟩
  · cases h
  · cases h
  · exact ⟨rfl, rfl⟩

theorem book_map {β : Type} {f : Order → β} (hf : ∀ (o : Order) now, f (o.moved now) = f o) (h : Storeless [c]) :
    (l.book supply c).orders.map f = l.orders.map f := by
  unfold book
  split
  · rfl
  · rename_i draft id
    exact absurd (List.mem_singleton_self _) (h draft id)
  · exact Depot.map_moveOrder fun o => hf o supply.now
  · rfl

/-- Calls that change no stock leave it as it was. -/
theorem foldl_book_stock {cs : List Call} (h : ∀ c ∈ cs, c.writesStock = false) :
    (cs.foldl (book supply) l).stock = l.stock := by
  induction cs generalizing l with
  | nil => rfl
  | cons c rest ih =>
    rw [List.forall_mem_cons] at h
    rw [List.foldl_cons, ih h.2, book_stock h.1]

/-- Calls that store and move no order leave the orders as they were. -/
theorem foldl_book_orders {cs : List Call} (h : ∀ c ∈ cs, c.writesOrders = false) :
    (cs.foldl (book supply) l).orders = l.orders ∧ (cs.foldl (book supply) l).inserted = l.inserted := by
  induction cs generalizing l with
  | nil => exact ⟨rfl, rfl⟩
  | cons c rest ih =>
    rw [List.forall_mem_cons] at h
    rw [List.foldl_cons, (ih h.2).1, (ih h.2).2]
    exact book_orders h.1

/-- Calls that store no order leave as it was what moving does not change. -/
theorem foldl_book_map {β : Type} {f : Order → β} (hf : ∀ (o : Order) now, f (o.moved now) = f o) {cs : List Call}
    (h : Storeless cs) : (cs.foldl (book supply) l).orders.map f = l.orders.map f := by
  induction cs generalizing l with
  | nil => rfl
  | cons c rest ih =>
    have hrest : Storeless rest := fun draft id hc => h draft id (List.mem_cons_of_mem _ hc)
    have hc : Storeless [c] := by
      intro draft id hc
      rw [List.mem_singleton] at hc
      exact h draft id (hc ▸ List.mem_cons_self ..)
    rw [List.foldl_cons, ih hrest, book_map hf hc]

end Ledger

namespace Depot

def ledger (d : Depot) : Ledger := ⟨d.stock, d.orders, d.inserted⟩

/-- Since `d` the calls `cs` were made, and the ledger of `d'` is what they make of that of `d`. -/
structure Booked (d : Depot) (cs : List Call) (d' : Depot) : Prop where
  calls : d'.calls = d.calls ++ cs
  supply : d'.supply = d.supply
  ledger : d'.ledger = cs.foldl (Ledger.book d.supply) d.ledger

namespace Booked

variable {d d₁ d₂ : Depot} {cs cs' : List Call}

theorem refl (d : Depot) : Booked d [] d := ⟨(List.append_nil _).symm, rfl, rfl⟩

theorem trans (h : Booked d cs d₁) (h' : Booked d₁ cs' d₂) : Booked d (cs ++ cs') d₂ := by
  refine ⟨?_, h'.supply.trans h.supply, ?_⟩
  · rw [h'.calls, h.calls, List.append_assoc]
  · rw [h'.ledger, h.ledger, h.supply, List.foldl_append]

theorem stock_eq (h : Booked d cs d₁) : d₁.stock = (cs.foldl (Ledger.book d.supply) d.ledger).stock := by
  rw [← h.ledger]
  rfl

theorem orders_eq (h : Booked d cs d₁) : d₁.orders = (cs.foldl (Ledger.book d.supply) d.ledger).orders := by
  rw [← h.ledger]
  rfl

theorem inserted_eq (h : Booked d cs d₁) : d₁.inserted = (cs.foldl (Ledger.book d.supply) d.ledger).inserted := by
  rw [← h.ledger]
  rfl

theorem stock_of_not_writes (h : Booked d cs d₁) (hc : ∀ c ∈ cs, c.writesStock = false) : d₁.stock = d.stock :=
  h.stock_eq.trans (Ledger.foldl_book_stock hc)

theorem map_of_storeless {β : Type} {f : Order → β} (h : Booked d cs d₁)
    (hf : ∀ (o : Order) now, f (o.moved now) = f o) (hc : Storeless cs) : d₁.orders.map f = d.orders.map f := by
  rw [h.orders_eq]
  exact Ledger.foldl_book_map hf hc

theorem ids_of_storeless (h : Booked d cs d₁) (hc : Storeless cs) : d₁.orders.map (·.id) = d.orders.map (·.id) :=
  h.map_of_storeless (fun _ _ => rfl) hc

theorem orders_of_not_writes (h : Booked d cs d₁) (hc : ∀ c ∈ cs, c.writesOrders = false) :
    d₁.orders = d.orders ∧ d₁.inserted = d.inserted := by
  rw [h.orders_eq, h.inserted_eq]
  exact Ledger.foldl_book_orders hc

end Booked

/-! ### The operations -/

theorem lookup_spec (hubId skuId : String) (d : Depot) :
    (d.lookups.strikes = true ∧ ∃ d', lookup hubId skuId d = (.error (.lookup "connection refused"), d') ∧
      Booked d [.lookup hubId skuId none] d') ∨
    (d.lookups.strikes = false ∧ ∃ d', lookup hubId skuId d = (.ok (d.records hubId skuId), d') ∧
      Booked d [.lookup hubId skuId (some (d.records hubId skuId).length)] d') := by
  unfold lookup
  cases hs : d.lookups.strikes with
  | true => exact .inl ⟨rfl, _, rfl, rfl, rfl, rfl⟩
  | false => exact .inr ⟨rfl, _, rfl, rfl, rfl, rfl⟩

theorem setOnHand_spec (u : StockUpdate) (d : Depot) :
    (∃ d', setOnHand u d = (.error (.update "503 Service Unavailable"), d') ∧ Booked d [.setOnHand u false] d') ∨
    (∃ d', setOnHand u d = (.ok (), d') ∧ Booked d [.setOnHand u true] d') := by
  unfold setOnHand
  cases hs : d.updates.strikes with
  | true => exact .inl ⟨_, rfl, rfl, rfl, rfl⟩
  | false => exact .inr ⟨_, rfl, rfl, rfl, rfl⟩

/-- The order that is stored next. -/
def nextOrder (d : Depot) (draft : Draft) : Order :=
  draft.order (d.supply.order (d.inserted + 1)).1 (d.supply.order (d.inserted + 1)).2

theorem Booked.nextOrder_eq {d d₁ : Depot} {cs : List Call} (h : Booked d cs d₁)
    (hc : ∀ c ∈ cs, c.writesOrders = false) (draft : Draft) : d₁.nextOrder draft = d.nextOrder draft := by
  unfold nextOrder
  rw [h.supply, (h.orders_of_not_writes hc).2]

theorem insert_spec (draft : Draft) (d : Depot) :
    (∃ d', insert draft d = (.error (.ofMessage "connection to order store lost"), d') ∧
      Booked d [.insert draft none] d') ∨
    (∃ d', insert draft d = (.ok (d.nextOrder draft), d') ∧
      Booked d [.insert draft (some (d.nextOrder draft).id)] d') := by
  unfold insert
  cases hs : d.inserts.strikes with
  | true => exact .inl ⟨_, rfl, rfl, rfl, rfl⟩
  | false => exact .inr ⟨_, rfl, rfl, rfl, rfl⟩

/-- Whether an order is on hold that the identifier names. -/
def holds (d : Depot) (id : Uuid) : Bool := (moveOrder id d.supply.now d.orders).isSome

theorem markNewOrder_spec (id : Uuid) (d : Depot) :
    (∃ d', markNewOrder id d = (.error (.ofMessage "order store timed out"), d') ∧
      Booked d [.markNewOrder id none] d') ∨
    (∃ d', markNewOrder id d = (.ok (d.holds id), d') ∧ Booked d [.markNewOrder id (some (d.holds id))] d') := by
  unfold markNewOrder holds
  cases hs : d.marks.strikes with
  | true => exact .inl ⟨_, rfl, rfl, rfl, rfl⟩
  | false =>
    refine .inr ?_
    cases hm : moveOrder id d.supply.now d.orders with
    | none => exact ⟨_, rfl, rfl, rfl, rfl⟩
    | some orders =>
      refine ⟨_, rfl, rfl, rfl, ?_⟩
      simp only [ledger, logged, List.foldl_cons, List.foldl_nil, Ledger.book, hm, Option.isSome_some,
        Option.getD_some]

theorem storeBlob_spec (b : Blob) (d : Depot) :
    (∃ f d', storeBlob b d = (.error f, d') ∧ Booked d [.blobPut b.bucket b.key b.body false] d' ∧
      d'.blobs = d.blobs ∧ d'.rejections = d.rejections) ∨
    (∃ d', storeBlob b d = (.ok (), d') ∧ Booked d [.blobPut b.bucket b.key b.body true] d' ∧
      d'.blobs = putBlob b d.blobs ∧ d'.rejections = d.rejections) := by
  unfold storeBlob
  cases hs : d.puts.strikes with
  | true => exact .inl ⟨_, _, rfl, ⟨rfl, rfl, rfl⟩, rfl, rfl⟩
  | false => exact .inr ⟨_, rfl, ⟨rfl, rfl, rfl⟩, rfl, rfl⟩

theorem publish_spec (topic key : String) (payload : Bytes) (d : Depot) :
    (∃ f d', publish topic key payload d = (.error f, d') ∧ Booked d [.publish topic key payload false] d') ∨
    (∃ d', publish topic key payload d = (.ok (), d') ∧ Booked d [.publish topic key payload true] d') := by
  unfold publish Bus.publish
  dsimp only
  split
  · exact .inl ⟨_, _, rfl, rfl, rfl, rfl⟩
  · exact .inr ⟨_, rfl, rfl, rfl, rfl⟩

end Depot

end Fulfilment
