import Fulfilment.Proofs.Http.Router
import Fulfilment.Proofs.Order.Creation
import Fulfilment.Proofs.Time.Newest

/-!
# Listing orders

Whatever is stored and moved in a run, the orders stand in the order in which they were stored
(`Depot.Booked.events`). A listing holds those of them that meet every condition of its filter (`OrderFilter.Admits`),
as often as they are stored, the latest first and those of one time as they stand (`listing_listOrders`). It is what
the listings for the single conditions have in common, and it changes nothing (`Depot.run_listing`).
-/

namespace Fulfilment

open Depot (Booked)
open Http Json
open Program (bind_eq)

/-! ### The order of the orders -/

theorem Call.exists_of_stored? {c : Call} {id : Uuid} (h : c.stored? = some id) :
    ∃ draft, c = .insert draft (some id) := by
  cases c with
  | insert draft id' =>
    cases h
    exact ⟨draft, rfl⟩
  | _ => cases h

namespace Ledger

/-- A call keeps the orders, but for what moving changes, and stores at most one, behind them. -/
theorem book_events (supply : Supply) (l : Ledger) (c : Call) :
    ∃ es : List OrderCreated, (l.book supply c).orders.map (·.createdEvent) = l.orders.map (·.createdEvent) ++ es ∧
      es.map (·.orderId) = c.stored?.toList := by
  cases h : c.stored? with
  | none =>
    have storeless : Storeless [c] := by
      intro draft id hc
      rw [← List.mem_singleton.1 hc] at h
      cases h
    refine ⟨[], ?_, rfl⟩
    rw [List.append_nil]
    exact book_map (fun _ _ => rfl) storeless
  | some id =>
    obtain ⟨draft, rfl⟩ := Call.exists_of_stored? h
    refine ⟨[(draft.order id (supply.order (l.inserted + 1)).2).createdEvent], ?_, rfl⟩
    exact List.map_append

theorem foldl_book_events (supply : Supply) (l : Ledger) (cs : List Call) :
    ∃ es : List OrderCreated,
      (cs.foldl (book supply) l).orders.map (·.createdEvent) = l.orders.map (·.createdEvent) ++ es ∧
        es.map (·.orderId) = cs.filterMap Call.stored? := by
  induction cs generalizing l with
  | nil => exact ⟨[], (List.append_nil _).symm, rfl⟩
  | cons c rest ih =>
    obtain ⟨es, hes, ids⟩ := book_events supply l c
    obtain ⟨es', hes', ids'⟩ := ih (l.book supply c)
    refine ⟨es ++ es', ?_, ?_⟩
    · rw [List.foldl_cons, hes', hes, List.append_assoc]
    · rw [List.map_append, ids, ids', List.filterMap_cons]
      cases c.stored? <;> rfl

end Ledger

/-- Orders keep their places, and those that are stored come behind them, one after the other. -/
theorem Depot.Booked.events {d d' : Depot} {cs : List Call} (h : Booked d cs d') :
    ∃ es, d'.createdEvents = d.createdEvents ++ es ∧ es.map (·.orderId) = cs.filterMap Call.stored? := by
  unfold createdEvents
  rw [h.orders_eq]
  exact Ledger.foldl_book_events d.supply d.ledger cs

/-! ### Conditions -/

namespace OrderFilter

/-- The order meets every condition that is given. -/
structure Admits (f : OrderFilter) (o : Order) : Prop where
  tenant : ∀ tenantId ∈ f.tenantId, tenantId = o.tenantId
  seller : ∀ sellerId ∈ f.sellerId, sellerId = o.sellerId
  status : ∀ status ∈ f.status, status.name = o.status
  since : ∀ t ∈ f.since, t ≤ o.createdAt
  till : ∀ t ∈ f.till, o.createdAt ≤ t

variable {f : OrderFilter} {o : Order}

theorem admits_iff : f.admits o = true ↔ f.Admits o := by
  have all {α : Type} (x : Option α) (p : α → Bool) : x.all p = true ↔ ∀ a ∈ x, p a = true := by
    cases x <;> simp
  unfold admits
  simp only [Bool.and_eq_true, all, beq_iff_eq, decide_eq_true_eq]
  constructor
  · rintro ⟨⟨⟨⟨tenant, seller⟩, status⟩, since⟩, till⟩
    exact ⟨tenant, seller, status, since, till⟩
  · rintro ⟨tenant, seller, status, since, till⟩
    exact ⟨⟨⟨⟨tenant, seller⟩, status⟩, since⟩, till⟩

instance (f : OrderFilter) : DecidablePred f.Admits := fun _ => decidable_of_iff _ admits_iff

/-- No condition. -/
def every : OrderFilter := ⟨none, none, none, none, none⟩

/-- The conditions one by one, each as a filter of its own. -/
def conditions (f : OrderFilter) : List OrderFilter :=
  [{ every with tenantId := f.tenantId }, { every with sellerId := f.sellerId }, { every with status := f.status },
    { every with since := f.since }, { every with till := f.till }]

/-- An order meets the conditions together if it meets each by itself. -/
theorem admits_iff_conditions : f.Admits o ↔ ∀ g ∈ f.conditions, g.Admits o := by
  simp only [← admits_iff, conditions, List.forall_mem_cons, admits, every, Option.all_none, Bool.and_eq_true,
    true_and, and_true]
  constructor
  · rintro ⟨⟨⟨⟨tenant, seller⟩, status⟩, since⟩, till⟩
    exact ⟨tenant, seller, status, since, till, fun g hg => absurd hg List.not_mem_nil⟩
  · rintro ⟨tenant, seller, status, since, till, -⟩
    exact ⟨⟨⟨⟨tenant, seller⟩, status⟩, since⟩, till⟩

end OrderFilter

/-! ### Listings -/

theorem mem_listOrders {f : OrderFilter} {orders : List Order} {o : Order} :
    o ∈ listOrders f orders ↔ o ∈ orders ∧ f.Admits o := by
  unfold listOrders
  rw [mem_newestFirst, List.mem_filter, OrderFilter.admits_iff]

/-- What a filter lists of these orders. -/
structure Listing (f : OrderFilter) (orders listed : List Order) : Prop where
  latest : LatestFirst Order.createdAt (orders.filter fun o => f.Admits o) listed
  /-- Orders are listed as often as they are stored. -/
  count : ∀ o, listed.count o = if f.Admits o then orders.count o else 0
  /-- The orders that are listed for every single condition, in the order in which they are listed for any. -/
  common : ∀ g ∈ f.conditions,
    listed = (listOrders g orders).filter fun o => ∀ g' ∈ f.conditions, o ∈ listOrders g' orders

theorem listing_listOrders (f : OrderFilter) (orders : List Order) : Listing f orders (listOrders f orders) := by
  have admitted : orders.filter f.admits = orders.filter fun o => f.Admits o := by
    apply List.filter_congr
    intro o _
    rw [Bool.eq_iff_iff, OrderFilter.admits_iff, decide_eq_true_eq]
  have latest : LatestFirst Order.createdAt (orders.filter fun o => f.Admits o) (listOrders f orders) := by
    unfold listOrders
    rw [admitted]
    exact latestFirst_newestFirst _ _
  refine ⟨latest, fun o => ?_, fun g hg => ?_⟩
  · rw [latest.perm.count_eq]
    by_cases ho : f.Admits o
    · rw [if_pos ho]
      exact List.count_filter (by simpa using ho)
    · rw [if_neg ho, List.count_eq_zero]
      simp [ho]
  · have weaker : ∀ o, f.Admits o → g.Admits o := by
      intro o ho
      exact OrderFilter.admits_iff_conditions.1 ho g hg
    have same : ∀ o ∈ orders, f.admits o =
        (decide (∀ g' ∈ f.conditions, o ∈ listOrders g' orders) && g.admits o) := by
      intro o ho
      simp only [mem_listOrders, ho, true_and, ← OrderFilter.admits_iff_conditions]
      rw [Bool.eq_iff_iff, Bool.and_eq_true, decide_eq_true_eq, OrderFilter.admits_iff, OrderFilter.admits_iff]
      exact ⟨fun h => ⟨h, weaker o h⟩, fun h => h.1⟩
    calc listOrders f orders
      _ = newestFirst Order.createdAt
            ((orders.filter g.admits).filter fun o => ∀ g' ∈ f.conditions, o ∈ listOrders g' orders) := by
          rw [List.filter_filter, ← List.filter_congr same]
          rfl
      _ = (listOrders g orders).filter fun o => ∀ g' ∈ f.conditions, o ∈ listOrders g' orders := newestFirst_filter _

theorem Depot.listOrders_of_working {d : Depot} (working : d.listing.strikes = false) (f : OrderFilter) :
    listOrders f d = (.ok (Fulfilment.listOrders f d.orders), d) := by
  unfold listOrders
  rw [working]
  rfl

theorem Depot.listOrders_snd (f : OrderFilter) (d : Depot) : (listOrders f d).2 = d := by
  unfold listOrders
  split
  · rfl
  · rfl

namespace OrderService

variable {s : OrderSettings} {r : Request} {d : Depot}

theorem getOrders_snd (r : Request) (d : Depot) : (getOrders r d).2 = d := by
  unfold getOrders
  cases readQuery OrderFilter r with
  | error message => rfl
  | ok f =>
    have run : Depot.listOrders f d = ((Depot.listOrders f d).1, d) := Prod.ext rfl (Depot.listOrders_snd f d)
    dsimp only
    rw [bind_eq run]
    cases (Depot.listOrders f d).1 with
    | error e => rfl
    | ok orders => rfl

/-- The answer that holds these orders. -/
def listed (orders : List Order) : Response :=
  .json 200 (printMembers [("orders", printList (orders.map Record.print))])

theorem getOrders_of_read {f : OrderFilter} (read : readQuery OrderFilter r = .ok f)
    (working : d.listing.strikes = false) :
    getOrders r d = (listed (listOrders f d.orders), d) := by
  unfold getOrders
  rw [read]
  dsimp only
  rw [bind_eq (Depot.listOrders_of_working working f)]
  rfl

/-- A request to list orders is answered by the handler of the route. -/
theorem respond_getOrders {d' : Depot} {response : Response} (method : r.method = "GET")
    (path : r.target.path = Utf8.ofString "/orders") (run : getOrders r d = (response, d')) :
    respond s r d = (Router.openToAll response, d') := by
  have route : Router.route? (routes s) r = some ⟨"/orders", [("POST", postOrder s), ("GET", getOrders)]⟩ := by
    unfold Router.route? routes
    exact List.find?_cons_of_pos (by simp [path])
  exact Router.respond_eq method (by decide) route rfl run

end OrderService

/-- Whatever was stored and moved in a run: the orders stand in the order in which they were stored, and a filter
lists those that meet all its conditions. The answer of the service holds the same. Listing changes nothing. -/
theorem Depot.run_listing (s : OrderSettings) (d₀ : Depot) (commands : List Command) (f : OrderFilter) :
    ∃ d cs es listed, d₀.run s commands = d ∧ d.calls = d₀.calls ++ cs ∧
      d.createdEvents = d₀.createdEvents ++ es ∧ es.map (·.orderId) = cs.filterMap Call.stored? ∧
      Listing f d.orders listed ∧ (d.listing.strikes = false → (listOrders f d).1 = .ok listed) ∧
      (listOrders f d).2 = d ∧
      ∀ query headers body,
        (OrderService.respond s ⟨"GET", ⟨Utf8.ofString "/orders", query⟩, headers, body⟩ d).2 = d ∧
        (d.listing.strikes = false →
          readQuery OrderFilter ⟨"GET", ⟨Utf8.ofString "/orders", query⟩, headers, body⟩ = .ok f →
          (OrderService.respond s ⟨"GET", ⟨Utf8.ofString "/orders", query⟩, headers, body⟩ d).1 =
            Router.openToAll (OrderService.listed listed)) := by
  obtain ⟨entries, history, -⟩ := Depot.run_history s d₀ commands
  obtain ⟨es, hes, ids⟩ := history.booked.events
  refine ⟨_, _, es, _, rfl, history.booked.calls, hes, ids, listing_listOrders f _, ?_, listOrders_snd f _,
    fun query headers body => ⟨?_, ?_⟩⟩
  · intro working
    rw [listOrders_of_working working]
  · rw [OrderService.respond_getOrders rfl rfl rfl]
    exact OrderService.getOrders_snd _ _
  · intro working read
    rw [OrderService.respond_getOrders rfl rfl (OrderService.getOrders_of_read read working)]

def noon : Instant := ⟨morning.date, 43200, 0, .refl true⟩

/-- Ten pieces of an article. Of the orders to come the second is stored at noon and the others in the morning. -/
def tenPiecesTillNoon : Depot :=
  { tenPieces with supply := ⟨noon, fun n => (someId, if n = 2 then noon else morning), fun _ => someId⟩ }

/-- Three orders of one tenant, the first of which is moved. -/
def threeOrdered : List Command :=
  [.create ⟨"t1", "s1", "h1", "k1", 4⟩, .create ⟨"t1", "s2", "h1", "k1", 2⟩, .create ⟨"t1", "s3", "h1", "k1", 1⟩,
    .mark someId]

def inTheMorning : OrderFilter := ⟨some "t1", none, none, some morning, some morning⟩

/-- The query that asks for the orders in the morning. -/
def askingForMorning : Bytes := Utf8.ofString "tenant_id=t1&from=2024-06-03T08:00:00Z&to=2024-06-03T08:00:00Z"

theorem run_listing_in_the_morning :
    (tenPiecesTillNoon.run twoAttempts threeOrdered).listing.strikes = false ∧
      readQuery OrderFilter ⟨"GET", ⟨Utf8.ofString "/orders", some askingForMorning⟩, [], []⟩ = .ok inTheMorning ∧
      ∃ listed, Listing inTheMorning (tenPiecesTillNoon.run twoAttempts threeOrdered).orders listed ∧
        listed.map (·.sellerId) = ["s1", "s3"] ∧
        (Depot.listOrders inTheMorning (tenPiecesTillNoon.run twoAttempts threeOrdered)).1 = .ok listed ∧
        (OrderService.respond twoAttempts ⟨"GET", ⟨Utf8.ofString "/orders", some askingForMorning⟩, [], []⟩
          (tenPiecesTillNoon.run twoAttempts threeOrdered)).1 = Router.openToAll (OrderService.listed listed) := by
  have working : (tenPiecesTillNoon.run twoAttempts threeOrdered).listing.strikes = false := by decide +kernel
  have read :
      readQuery OrderFilter ⟨"GET", ⟨Utf8.ofString "/orders", some askingForMorning⟩, [], []⟩ = .ok inTheMorning := by
    with_unfolding_all rfl
  obtain ⟨d, cs, es, listed, rfl, -, -, -, listing, told, -, answered⟩ :=
    Depot.run_listing twoAttempts tenPiecesTillNoon threeOrdered inTheMorning
  refine ⟨working, read, listed, listing, ?_, told working, (answered _ _ _).2 working read⟩
  rw [listing.latest.unique (.of_descending (by decide +kernel))]
  decide +kernel

end Fulfilment
