import Fulfilment.Proofs.Depot.Stock
import Fulfilment.Proofs.Order.Pipeline

/-!
# The account of stock

Stock is written as a figure worked out from one that was read before. Over any run it still adds up: the figure of an
article with one record is what it was at first, less the quantity of the deed for each time it was put, and nothing
else about stock ever changes (`Depot.run_stock`). A deed puts at most one figure, that of its own article
(`Deed.Did.taking`).
-/

namespace Fulfilment

open Depot (Booked Drawn)

/-- The quantity that a deed sets aside when it puts a figure. -/
def Deed.quantity : Deed → Int
  | create r => r.quantity.toInt
  | finalize e => e.quantity.toInt
  | row _ | mark _ | other => 0

/-- What was taken of an article: for each time that its figure was put, the quantity of the deed that put it. -/
def taken (hubId skuId : String) : List Entry → Int
  | [] => 0
  | x :: es => (x.calls.countP (·.puts hubId skuId) : Int) * x.deed.quantity + taken hubId skuId es

/-- What calls take of the stock: nothing, or an amount of one article, of which there is one record. -/
inductive Taking (amount : Int) (cs : List Call) (stock stock' : List Snapshot) : Prop
  | nothing (same : stock' = stock) (unput : ∀ c ∈ cs, c.writesStock = false)
  | drawn {hubId skuId : String} (drawn : Drawn hubId skuId amount stock stock')
      (once : ∀ hubId' skuId', cs.countP (·.puts hubId' skuId') = if hubId = hubId' ∧ skuId = skuId' then 1 else 0)

/-- No figure that is put, or tried to, is below zero. -/
def Nonnegative (cs : List Call) : Prop := ∀ u ok, .setOnHand u ok ∈ cs → 0 ≤ u.quantity.toInt

section

variable {d d' : Depot} {cs rest : List Call} {amount : Int} {stock stock' : List Snapshot}

theorem Putless.nonnegative (h : Putless cs) : Nonnegative cs := fun u ok hu => absurd hu (h u ok)

theorem Putless.taking (h : Putless cs) (hb : Booked d cs d') : Taking amount cs d.stock d'.stock :=
  .nothing (hb.stock_of_not_writes h.not_writesStock) h.not_writesStock

theorem Nonnegative.append (h : Nonnegative cs) (h' : Putless rest) : Nonnegative (cs ++ rest) := by
  intro u ok hu
  rcases List.mem_append.1 hu with hu | hu
  · exact h u ok hu
  · exact absurd hu (h' u ok)

theorem Taking.append (h : Taking amount cs stock stock') (h' : Putless rest) :
    Taking amount (cs ++ rest) stock stock' := by
  cases h with
  | nothing same unput =>
    refine .nothing same ?_
    intro c hc
    rcases List.mem_append.1 hc with hc | hc
    · exact unput c hc
    · exact h'.not_writesStock c hc
  | drawn drawn once =>
    refine .drawn drawn ?_
    intro hubId skuId
    rw [List.countP_append, countP_puts_eq_zero h'.not_writesStock, once]
    rfl

/-- A reservation puts the figure that it found less the quantity, which is not below zero, or puts none. -/
theorem Reserving.taking {tenantId hubId skuId : String} {quantity : Int64} {rule : AvailabilityRule}
    {r : Except InventoryError ReserveOutcome} (h : Reserving d tenantId hubId skuId quantity rule r cs) :
    Taking quantity.toInt cs d.stock (cs.foldl (Ledger.book d.supply) d.ledger).stock ∧ Nonnegative cs := by
  cases h with
  | unanswered => exact ⟨.nothing rfl (by simp [Call.writesStock]), by simp [Nonnegative]⟩
  | noRecord => exact ⟨.nothing rfl (by simp [Call.writesStock]), by simp [Nonnegative]⟩
  | insufficient => exact ⟨.nothing rfl (by simp [Call.writesStock]), by simp [Nonnegative]⟩
  | notPut record enough =>
    have h0 := (Snapshot.toInt_of_after? enough).2.1
    exact ⟨.nothing rfl (by simp [Call.writesStock]), by simp [Nonnegative, h0]⟩
  | @put s left record enough =>
    obtain ⟨hleft, h0, -⟩ := Snapshot.toInt_of_after? enough
    refine ⟨.drawn ⟨s, left, record, hleft, rfl⟩ ?_, by simp [Nonnegative, h0]⟩
    intro hubId' skuId'
    simp [List.countP_cons, Call.puts]

/-- The calls of a reservation, and then others that put no figure. -/
inductive Reserves (d : Depot) (quantity : Int32) : List Call → Prop
  | nothing {cs : List Call} (putless : Putless cs) : Reserves d quantity cs
  | reserving {tenantId hubId skuId : String} {rule : AvailabilityRule}
      {outcome : Except InventoryError ReserveOutcome}
      {cs rest : List Call} (reserving : Reserving d tenantId hubId skuId quantity.toInt64 rule outcome cs)
      (putless : Putless rest) : Reserves d quantity (cs ++ rest)

theorem Reserves.of_reserving {tenantId hubId skuId : String} {quantity : Int32} {rule : AvailabilityRule}
    {outcome : Except InventoryError ReserveOutcome}
    (h : Reserving d tenantId hubId skuId quantity.toInt64 rule outcome cs) : Reserves d quantity cs := by
  rw [← List.append_nil cs]
  exact .reserving h fun u ok hu => by cases hu

theorem Reserves.taking {quantity : Int32} (h : Reserves d quantity cs) (hb : Booked d cs d') :
    Taking quantity.toInt cs d.stock d'.stock ∧ Nonnegative cs := by
  cases h with
  | nothing putless => exact ⟨putless.taking hb, putless.nonnegative⟩
  | @reserving _ _ _ _ _ cs₁ rest reserving putless =>
    obtain ⟨taking, nonnegative⟩ := reserving.taking
    rw [Int32.toInt_toInt64] at taking
    have hstock : d'.stock = (cs₁.foldl (Ledger.book d.supply) d.ledger).stock := by
      rw [hb.stock_eq, List.foldl_append]
      exact Ledger.foldl_book_stock putless.not_writesStock
    rw [hstock]
    exact ⟨taking.append putless, nonnegative.append putless⟩

theorem Creating.reserves {topic : String} {request : OrderRequest} {r : Except IntakeError Uuid}
    (h : Creating topic request d r cs) : Reserves d request.quantity cs := by
  cases h with
  | invalid => exact .nothing fun u ok hu => by cases hu
  | notReserved _ reserving => exact .of_reserving reserving
  | insufficient _ reserving => exact .of_reserving reserving
  | notStored _ reserving => exact .reserving reserving (by simp [Putless])
  | stored told _ reserving => exact .reserving reserving (by simp [Putless, OrderRequest.storing, Order.announcing])

theorem Finalizing.reserves {topic : String} {e : OrderCreated} {r : Except Failure Finalization}
    (h : Finalizing topic e d r cs) : Reserves d e.quantity cs := by
  cases h with
  | unanswered => exact .nothing (by simp [Putless])
  | noRecord => exact .nothing (by simp [Putless])
  | onHold => exact .nothing (by simp [Putless])
  | notPut covered => exact .of_reserving (.notPut covered.record covered.enough)
  | notMoved covered => exact .reserving (.put covered.record covered.enough) (by simp [Putless])
  | notTold covered =>
    exact .reserving (.put covered.record covered.enough) (by simp [Putless, OrderCreated.telling])
  | finalized covered =>
    exact .reserving (.put covered.record covered.enough) (by simp [Putless, OrderCreated.telling])

theorem StoringRow.putless {topic : String} {request : OrderRequest} {r : Except RowError Unit}
    (h : StoringRow topic request d r cs) : Putless cs := by
  cases h <;> simp [Putless, OrderRequest.storing, Order.announcing]

theorem putless_of_isAside {jobTopic : String} (h : ∀ c ∈ cs, c.isAside jobTopic) : Putless cs := by
  intro u ok hu
  cases h _ hu

/-- What is done when a file is taken in puts no figure. -/
theorem Deed.Did.putless {s : OrderSettings} {deed : Deed} (h : deed.Did s d cs d') (hf : deed.OfFile) :
    Putless cs := by
  cases h with
  | create => exact absurd hf id
  | finalize => exact absurd hf id
  | mark => exact absurd hf id
  | row _ _ fared => exact fared.putless
  | other _ aside => exact putless_of_isAside aside

/-- A deed takes its quantity of one article or nothing of any. -/
theorem Deed.Did.taking {s : OrderSettings} {deed : Deed} (h : deed.Did s d cs d') :
    Taking deed.quantity cs d.stock d'.stock ∧ Nonnegative cs ∧
      (Putless cs ∨ (∃ r, deed = .create r) ∨ ∃ e, deed = .finalize e) := by
  cases h with
  | create _ fared booked =>
    obtain ⟨ht, hn⟩ := fared.reserves.taking booked
    exact ⟨ht, hn, .inr (.inl ⟨_, rfl⟩)⟩
  | finalize _ fared booked =>
    obtain ⟨ht, hn⟩ := fared.reserves.taking booked
    exact ⟨ht, hn, .inr (.inr ⟨_, rfl⟩)⟩
  | row _ _ fared booked => exact ⟨fared.putless.taking booked, fared.putless.nonnegative, .inl fared.putless⟩
  | @mark id moved _ _ booked =>
    have putless : Putless [.markNewOrder id moved] := by simp [Putless]
    exact ⟨putless.taking booked, putless.nonnegative, .inl putless⟩
  | other booked aside =>
    have putless := putless_of_isAside aside
    exact ⟨putless.taking booked, putless.nonnegative, .inl putless⟩

/-- What taking stock does to the records of any one article. -/
theorem Taking.records (h : Taking amount cs d.stock d'.stock) (hubId skuId : String) :
    (cs.countP (·.puts hubId skuId) = 0 ∧ d'.records hubId skuId = d.records hubId skuId) ∨
      (cs.countP (·.puts hubId skuId) = 1 ∧ ∃ r left, d.records hubId skuId = [r] ∧
        d'.records hubId skuId = [{ r with onHand := left }] ∧ left.toInt = r.onHand.toInt - amount) := by
  unfold Depot.records
  cases h with
  | nothing same unput => exact .inl ⟨countP_puts_eq_zero unput, by rw [same]⟩
  | @drawn hubId' skuId' drawn once =>
    obtain ⟨r, left, hr, hl, hs⟩ := drawn
    rw [once hubId skuId, hs]
    by_cases hk : hubId' = hubId ∧ skuId' = skuId
    · obtain ⟨rfl, rfl⟩ := hk
      exact .inr ⟨by simp, r, left, hr, Depot.filter_putOnHand_self hr, hl⟩
    · rw [if_neg hk]
      refine .inl ⟨rfl, Depot.filter_putOnHand_ne ?_⟩
      rintro ⟨rfl, rfl⟩
      exact hk ⟨rfl, rfl⟩

theorem Taking.map_stock (h : Taking amount cs stock stock') {α : Type} {f : Snapshot → α}
    (hf : ∀ r x, f { r with onHand := x } = f r) : stock'.map f = stock.map f := by
  cases h with
  | nothing same _ => rw [same]
  | drawn drawn _ =>
    obtain ⟨r, left, -, -, rfl⟩ := drawn
    exact Depot.map_putOnHand hf

end

/-! ### Histories -/

section

variable {s : OrderSettings} {d d' : Depot} {es : List Entry} {hubId skuId : String}

/-- The figure of an article with one record is what it was at first, less what was taken. -/
theorem History.onHand (h : History s d es d') {r : Snapshot} (hr : d.records hubId skuId = [r]) :
    ∃ left, d'.records hubId skuId = [{ r with onHand := left }] ∧
      left.toInt = r.onHand.toInt - taken hubId skuId es := by
  induction h generalizing r with
  | none d => exact ⟨r.onHand, hr, (Int.sub_zero _).symm⟩
  | more did later ih =>
    rw [taken]
    rcases did.taking.1.records hubId skuId with ⟨hc, he⟩ | ⟨hc, r', left, hr', he, hl⟩
    · obtain ⟨left, hd, hl⟩ := ih (he.trans hr)
      refine ⟨left, hd, ?_⟩
      rw [hl, hc]
      simp
    · -- the deed has put the figure, and the rest of the history starts from what it left
      rw [hr] at hr'
      obtain ⟨rfl, -⟩ := List.cons.inj hr'
      obtain ⟨left', hd, hl'⟩ := ih he
      refine ⟨left', hd, ?_⟩
      rw [hl', hl, hc]
      simp only [Int.natCast_one, Int.one_mul]
      omega

/-- An article without a record, or with several, is never touched. -/
theorem History.untouched (h : History s d es d') (hn : (d.records hubId skuId).length ≠ 1) :
    d'.records hubId skuId = d.records hubId skuId ∧ ∀ x ∈ es, ∀ c ∈ x.calls, c.puts hubId skuId = false := by
  induction h with
  | none d => exact ⟨rfl, fun x hx => by cases hx⟩
  | more did later ih =>
    rcases did.taking.1.records hubId skuId with ⟨hc, he⟩ | ⟨-, r, left, hr, -⟩
    · obtain ⟨hd, hp⟩ := ih (by rwa [he])
      refine ⟨hd.trans he, ?_⟩
      intro x hx c hm
      rcases List.mem_cons.1 hx with rfl | hx
      · have := List.countP_eq_zero.1 hc c hm
        rwa [Bool.not_eq_true] at this
      · exact hp x hx c hm
    · -- a figure is put only where there is one record
      exact absurd (by rw [hr]; rfl) hn

theorem History.map_stock (h : History s d es d') {α : Type} {f : Snapshot → α}
    (hf : ∀ r x, f { r with onHand := x } = f r) : d'.stock.map f = d.stock.map f := by
  induction h with
  | none d => rfl
  | more did later ih => exact ih.trans (did.taking.1.map_stock hf)

theorem History.did (h : History s d es d') {x : Entry} (hx : x ∈ es) : x.deed.Did s x.before x.calls x.after := by
  obtain ⟨es₁, es₂, rfl⟩ := List.append_of_mem hx
  exact h.split.2.1

/-- A program that only takes in files puts no figure. -/
theorem Recorded.putless {α : Type} {p : Work α} (h : Recorded s Deed.OfFile p) (d : Depot) :
    ∃ cs, (p d).2.calls = d.calls ++ cs ∧ Putless cs := by
  obtain ⟨es, hes, hf⟩ := h d
  refine ⟨_, hes.booked.calls, ?_⟩
  intro u ok hu
  obtain ⟨x, hx, hc⟩ := List.mem_flatMap.1 hu
  exact (hes.did hx).putless (hf x hx) u ok hc

end

/-- Over any run, the figure of an article with one record falls by what was taken, and nothing else about stock ever
changes. Figures are put where orders are taken in singly or finalized, never when files are, and never below zero. -/
theorem Depot.run_stock (s : OrderSettings) (d : Depot) (commands : List Command) :
    ∃ es, History s d es (d.run s commands) ∧ (d.run s commands).calls = d.calls ++ es.flatMap (·.calls) ∧
      (∀ hubId skuId r, d.records hubId skuId = [r] → ∃ left,
        (d.run s commands).records hubId skuId = [{ r with onHand := left }] ∧
          left.toInt = r.onHand.toInt - taken hubId skuId es) ∧
      (∀ hubId skuId, (d.records hubId skuId).length ≠ 1 →
        (d.run s commands).records hubId skuId = d.records hubId skuId ∧
          ∀ x ∈ es, ∀ c ∈ x.calls, c.puts hubId skuId = false) ∧
      (d.run s commands).stock.map (fun r => (r.hubId, r.skuId, r.reserved, r.updatedAt)) =
        d.stock.map (fun r => (r.hubId, r.skuId, r.reserved, r.updatedAt)) ∧
      (∀ x ∈ es, ∀ u ok, .setOnHand u ok ∈ x.calls →
        0 ≤ u.quantity.toInt ∧ ((∃ r, x.deed = .create r) ∨ ∃ e, x.deed = .finalize e)) ∧
      (∀ job d₀, ∃ cs, (ingest s.bulk job d₀).2.calls = d₀.calls ++ cs ∧ Putless cs) ∧
      (∀ m d₀, ∃ cs, (OrderService.retriedBulkWorker s m d₀).2.calls = d₀.calls ++ cs ∧ Putless cs) := by
  obtain ⟨es, h, -⟩ := Depot.run_history s d commands
  refine ⟨es, h, h.booked.calls, fun _ _ _ hr => h.onHand hr, fun _ _ hn => h.untouched hn, ?_, ?_,
    fun job d₀ => (ingest_recorded job).putless d₀, fun m d₀ => (retriedBulkWorker_recorded m).putless d₀⟩
  · exact h.map_stock fun _ _ => rfl
  · intro x hx u ok hu
    obtain ⟨-, nonnegative, puts⟩ := (h.did hx).taking
    refine ⟨nonnegative u ok hu, ?_⟩
    rcases puts with putless | puts
    · exact absurd hu (putless u ok)
    · exact puts

end Fulfilment
