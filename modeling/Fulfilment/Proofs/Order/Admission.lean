import Fulfilment.Order.Api
import Fulfilment.Proofs.Depot.Replay
import Fulfilment.Proofs.Http.Body
import Fulfilment.Proofs.Http.Router
import Fulfilment.Proofs.Order.Acceptance
import Fulfilment.Proofs.Order.Intake
import Fulfilment.Proofs.Order.Lifecycle

/-!
# What a request leaves behind

A request to take in an order is checked, its stock is looked up and put, and its order is stored and announced. It
may break off at each of these stages but the last, and the error tells at which (`Admission`): an order is taken in
just when the request is valid, its article has a single record with enough on hand, and each part does what it is
told to (`Admission.isOk_iff`). Only a request whose order cannot be stored leaves a trace, the stock that was put for
it (`Admission.unkept`). The answer to a posted order tells the same by its status (`OrderService.Answered`), and a
request that is sent as its own document is received as it was sent (`OrderRequest.readBody_encode`).
-/

namespace Fulfilment

open Depot (Drawn Replayed)
open Program (bind_eq)

/-- What it takes for an order to be taken in. -/
structure Admissible (q : OrderRequest) (d : Depot) : Prop where
  valid : q.validate = .ok ()
  lookups : d.lookups.strikes = false
  enough : ∃ s, d.records q.hubId q.skuId = [s] ∧ q.quantity.toInt ≤ s.onHand.toInt
  updates : d.updates.strikes = false
  inserts : d.inserts.strikes = false

/-- The calls by which stock is looked up and put for a request. -/
def OrderRequest.taking (q : OrderRequest) (left : Int64) (put : Bool) : List Call :=
  [.lookup q.hubId q.skuId (some 1), .setOnHand ⟨q.tenantId, q.hubId, q.skuId, left⟩ put]

/-- The figure left on hand when the quantity of a request is taken from the one record of its article. -/
def OrderRequest.Leaves (q : OrderRequest) (d : Depot) (left : Int64) : Prop :=
  ∃ s, d.records q.hubId q.skuId = [s] ∧ left.toInt = s.onHand.toInt - q.quantity.toInt ∧ 0 ≤ left.toInt

/-- What comes of a request: the result, the calls that were made, and all that has become of the depot. -/
inductive Admission (topic : String) (q : OrderRequest) (d : Depot) :
    Except IntakeError Uuid → List Call → Depot → Prop
  | invalid {e : ValidationError} (fault : q.validate = .error e) : Admission topic q d (.error (.invalid e)) [] d
  | unavailable {e : InventoryError} {found : Option Nat} (valid : q.validate = .ok ())
      (unresolved : d.resolves q.hubId q.skuId = false) :
    Admission topic q d (.error (.inventoryUnavailable e)) [.lookup q.hubId q.skuId found]
      { d with lookups := d.lookups.worn, calls := d.calls ++ [.lookup q.hubId q.skuId found] }
  | insufficient {s : Snapshot} (valid : q.validate = .ok ()) (lookups : d.lookups.strikes = false)
      (record : d.records q.hubId q.skuId = [s]) (short : s.onHand.toInt < q.quantity.toInt) :
    Admission topic q d (.error (.insufficientInventory (s.available .onHand) q.quantity))
      [.lookup q.hubId q.skuId (some 1)]
      { d with lookups := d.lookups.worn, calls := d.calls ++ [.lookup q.hubId q.skuId (some 1)] }
  | notPut {e : InventoryError} {left : Int64} (valid : q.validate = .ok ()) (lookups : d.lookups.strikes = false)
      (leaves : q.Leaves d left) (updates : d.updates.strikes = true) :
    Admission topic q d (.error (.inventoryUpdateFailed e)) (q.taking left false)
      { d with
        lookups := d.lookups.worn
        updates := d.updates.worn
        calls := d.calls ++ q.taking left false }
  | notStored {f : Failure} {left : Int64} (valid : q.validate = .ok ()) (lookups : d.lookups.strikes = false)
      (leaves : q.Leaves d left) (updates : d.updates.strikes = false) (inserts : d.inserts.strikes = true) :
    Admission topic q d (.error (.persistence f)) (q.taking left true ++ [.insert q.draft none])
      { d with
        lookups := d.lookups.worn
        updates := d.updates.worn
        inserts := d.inserts.worn
        stock := Depot.putOnHand q.hubId q.skuId left d.stock
        calls := d.calls ++ (q.taking left true ++ [.insert q.draft none]) }
  | taken {left : Int64} {told : Bool} (valid : q.validate = .ok ()) (lookups : d.lookups.strikes = false)
      (leaves : q.Leaves d left) (updates : d.updates.strikes = false) (inserts : d.inserts.strikes = false)
      (announced : told = !d.bus.refuses topic) :
    Admission topic q d (.ok (d.nextOrder q.draft).id) (q.taking left true ++ q.storing topic d told)
      { d with
        lookups := d.lookups.worn
        updates := d.updates.worn
        inserts := d.inserts.worn
        stock := Depot.putOnHand q.hubId q.skuId left d.stock
        orders := d.orders ++ [d.nextOrder q.draft]
        inserted := d.inserted + 1
        bus := (d.bus.publish ⟨topic, some (d.nextOrder q.draft).id.render,
          Json.Record.encode (d.nextOrder q.draft).createdEvent⟩).2
        calls := d.calls ++ (q.taking left true ++ q.storing topic d told) }

/-- By the rule for orders of their own, a positive quantity may be set aside just when it is on hand. -/
theorem Snapshot.after?_onHand_eq_none {s : Snapshot} {quantity : Int64} (hq : 0 < quantity.toInt) :
    s.after? .onHand quantity = none ↔ s.onHand.toInt < quantity.toInt := by
  have hmax : s.onHand.toInt ≤ max64 := Int64.toInt_le s.onHand
  unfold after? available
  dsimp only
  split
  · simp only [reduceCtorEq, false_iff]
    omega
  · simp only [true_iff]
    omega

theorem IntakeError.ofInventoryError_of_isMissingRecord {e : InventoryError} (h : e.isMissingRecord = true) :
    ofInventoryError e = inventoryUnavailable e := by
  cases e with
  | update => cases h
  | _ => rfl

theorem OrderRequest.leaves_of_after? {q : OrderRequest} {d : Depot} {s : Snapshot} {rule : AvailabilityRule}
    {left : Int64} (record : d.records q.hubId q.skuId = [s])
    (enough : s.after? rule q.quantity.toInt64 = some left) :
    q.Leaves d left := by
  obtain ⟨hleft, h0, -⟩ := Snapshot.toInt_of_after? enough
  rw [Int32.toInt_toInt64] at hleft
  exact ⟨s, record, hleft, h0⟩

/-- What is left where an order is not taken in: no order, nothing on the bus, and the stock as it was, unless the
order could not be stored. -/
structure Unkept (q : OrderRequest) (d : Depot) (e : IntakeError) (d' : Depot) : Prop where
  orders : d'.orders = d.orders
  bus : d'.bus = d.bus
  drawn : ∀ f, e = .persistence f → Drawn q.hubId q.skuId q.quantity.toInt d.stock d'.stock
  stock_ne_iff : d'.stock ≠ d.stock ↔ ∃ f, e = .persistence f

section

variable {topic : String} {request q : OrderRequest} {d d' : Depot} {r : Except IntakeError Uuid} {cs : List Call}

theorem Creating.admission (h : Creating topic request d r cs) (hr : Replayed d cs d') :
    Admission topic request.trimmed d r cs d' := by
  cases h with
  | invalid fault =>
    cases hr
    exact .invalid fault
  | notReserved valid reserving =>
    cases reserving with
    | unanswered =>
      have down : d.lookups.strikes = true := hr.1.refuses_eq
      rw [hr.eq]
      exact .unavailable valid (by simp [Depot.resolves, down])
    | noRecord missing =>
      obtain ⟨hmissing, hn⟩ := isMissingRecord_of_onlyRecord missing
      rw [hr.eq, IntakeError.ofInventoryError_of_isMissingRecord hmissing]
      exact .unavailable valid (by simp [Depot.resolves, hn])
    | notPut record enough =>
      rw [hr.eq]
      exact .notPut valid hr.1.refuses_eq (OrderRequest.leaves_of_after? record enough) hr.2.1.refuses_eq
  | insufficient valid reserving =>
    cases reserving with
    | insufficient record short =>
      have positive : 0 < request.trimmed.quantity.toInt64.toInt := by
        rw [Int32.toInt_toInt64]
        exact (OrderRequest.of_validate valid).2
      rw [Snapshot.after?_onHand_eq_none positive, Int32.toInt_toInt64] at short
      rw [hr.eq]
      exact .insufficient valid hr.1.refuses_eq record short
  | notStored valid reserving =>
    cases reserving with
    | put record enough =>
      have leaves := OrderRequest.leaves_of_after? record enough
      rw [hr.eq]
      exact .notStored valid hr.1.refuses_eq leaves hr.2.1.refuses_eq hr.2.2.1.refuses_eq
  | stored told valid reserving =>
    cases reserving with
    | put record enough =>
      have leaves := OrderRequest.leaves_of_after? record enough
      have announced : told = !d.bus.refuses topic := hr.2.2.2.1
      rw [hr.eq]
      exact .taken valid hr.1.refuses_eq leaves hr.2.1.refuses_eq hr.2.2.1.refuses_eq announced

theorem createOrder_replays (topic : String) (request : OrderRequest) : Replays (createOrder topic request) := by
  have store : Replays (storeOrder topic request.trimmed) := by
    refine (Replays.insert _).bind fun stored => ?_
    cases stored with
    | error => exact .pure _
    | ok o => exact (Replays.publishRecord topic _ _).bind fun _ => .pure _
  unfold createOrder
  dsimp only
  cases request.trimmed.validate with
  | error => exact .pure _
  | ok =>
    refine (Replays.reserve _ _ _ _ .onHand).bind fun reserved => ?_
    match reserved with
    | .error _ => exact .pure _
    | .ok (.insufficient _) => exact .pure _
    | .ok (.reserved _ _) => exact store

theorem createOrder_admission (topic : String) (request : OrderRequest) (d : Depot) :
    ∃ r d' cs, createOrder topic request d = (r, d') ∧ Admission topic request.trimmed d r cs d' := by
  obtain ⟨r, d', cs, run, fared, hb⟩ := createOrder_spec topic request d
  have replayed := (createOrder_replays topic request).of_booked run hb
  exact ⟨r, d', cs, run, fared.admission replayed⟩

namespace Admission

variable (h : Admission topic q d r cs d')
include h

/-- An order is taken in just when nothing is in its way. -/
theorem isOk_iff : (∃ id, r = .ok id) ↔ Admissible q d := by
  constructor
  · rintro ⟨id, rfl⟩
    cases h with
    | taken valid lookups leaves updates inserts =>
      obtain ⟨s, record, hleft, h0⟩ := leaves
      exact ⟨valid, lookups, ⟨s, record, by omega⟩, updates, inserts⟩
  · intro ⟨valid, lookups, ⟨s, record, enough⟩, updates, inserts⟩
    cases h with
    | invalid fault => cases fault.symm.trans valid
    | unavailable _ unresolved => simp [Depot.resolves, lookups, record] at unresolved
    | insufficient _ _ record' short =>
      cases record.symm.trans record'
      omega
    | notPut _ _ _ down => cases down.symm.trans updates
    | notStored _ _ _ _ down => cases down.symm.trans inserts
    | taken => exact ⟨_, rfl⟩

theorem count_orders {id : Uuid} (hr : r = .ok id) :
    (d'.orders.map (·.id)).count id = (d.orders.map (·.id)).count id + 1 := by
  subst hr
  cases h with
  | taken => simp

theorem unkept {e : IntakeError} (hr : r = .error e) : Unkept q d e d' := by
  subst hr
  cases h with
  | notStored valid _ leaves =>
    obtain ⟨s, record, hleft, -⟩ := leaves
    have drawn : Drawn q.hubId q.skuId q.quantity.toInt d.stock _ := ⟨s, _, record, hleft, rfl⟩
    have positive := (OrderRequest.of_validate valid).2
    have hne : Depot.putOnHand q.hubId q.skuId _ d.stock ≠ d.stock := drawn.ne (by omega)
    exact ⟨rfl, rfl, fun _ _ => drawn, ⟨fun _ => ⟨_, rfl⟩, fun _ => hne⟩⟩
  | _ => exact ⟨rfl, rfl, by simp, by simp⟩

end Admission

end

/-! ### Over HTTP -/

theorem OrderRequest.lawful (q : OrderRequest) : Json.Record.Lawful q where
  names := by decide
  each := by
    refine List.forall_mem_cons.2 ⟨Json.Codec.text_lawful _, ?_⟩
    refine List.forall_mem_cons.2 ⟨Json.Codec.text_lawful _, ?_⟩
    refine List.forall_mem_cons.2 ⟨Json.Codec.text_lawful _, ?_⟩
    refine List.forall_mem_cons.2 ⟨Json.Codec.text_lawful _, ?_⟩
    exact List.forall_mem_singleton.2 (Json.Codec.int32_lawful _)

theorem OrderRequest.readBody_encode {request : OrderRequest} {method : String} {target : Http.Target}
    {headers : List (String × Bytes)} (short : (Json.Record.encode request).length ≤ Http.maxDocumentBytes) :
    Http.readBody OrderRequest ⟨method, target, Http.documentHeader :: headers, Json.Record.encode request⟩ =
      .ok request :=
  Http.readBody_encode request.lawful short

namespace OrderService

open Http Json

/-- What comes of a request in a body, if there is one. -/
def Brings (s : OrderSettings) (r : Request) (d : Depot) (res : Except IntakeError Uuid) : Prop :=
  ∃ request, readBody OrderRequest r = .ok request ∧ (createOrder s.createdTopic request d).1 = res

/-- How a posted order is answered, and what has become of the orders. -/
structure Answered (s : OrderSettings) (r : Request) (d : Depot) (answer : Response) (d' : Depot) : Prop where
  created_iff : answer.status = 201 ↔ ∃ o, d'.orders = d.orders ++ [o]
  /-- The order that was stored is named. -/
  created_body : ∀ o, d'.orders = d.orders ++ [o] →
    answer.body = Utf8.encode (printMembers [("order_id", Codec.uuid.print o.id)])
  otherwise : answer.status ≠ 201 → d'.orders = d.orders ∧ answer.status ∈ [400, 409, 503, 500]
  invalid_iff : answer.status = 400 ↔
    (∃ message, readBody OrderRequest r = .error message) ∨ ∃ e, Brings s r d (.error (.invalid e))
  insufficient_iff : answer.status = 409 ↔
    ∃ available requested, Brings s r d (.error (.insufficientInventory available requested))
  inventory_iff : answer.status = 503 ↔
    ∃ e, Brings s r d (.error (.inventoryUnavailable e)) ∨ Brings s r d (.error (.inventoryUpdateFailed e))
  persistence_iff : answer.status = 500 ↔ ∃ f, Brings s r d (.error (.persistence f))

variable {s : OrderSettings} {r : Request}

theorem Answered.openToAll {d d' : Depot} {answer : Response} (h : Answered s r d answer d') :
    Answered s r d (Router.openToAll answer) d' :=
  ⟨h.created_iff, h.created_body, h.otherwise, h.invalid_iff, h.insufficient_iff, h.inventory_iff, h.persistence_iff⟩

theorem Answered.status_of_error {d d' : Depot} {answer : Response} {e : IntakeError} (h : Answered s r d answer d')
    (brings : Brings s r d (.error e)) : answer.status = intakeStatus e := by
  cases e with
  | invalid e => exact h.invalid_iff.2 (.inr ⟨e, brings⟩)
  | insufficientInventory available requested => exact h.insufficient_iff.2 ⟨available, requested, brings⟩
  | inventoryUnavailable e => exact h.inventory_iff.2 ⟨e, .inl brings⟩
  | inventoryUpdateFailed e => exact h.inventory_iff.2 ⟨e, .inr brings⟩
  | persistence f => exact h.persistence_iff.2 ⟨f, brings⟩

theorem Answered.exists_error {d d' : Depot} {answer : Response} {request : OrderRequest}
    (h : Answered s r d answer d') (read : readBody OrderRequest r = .ok request) (other : answer.status ≠ 201) :
    ∃ e, Brings s r d (.error e) := by
  have listed := (h.otherwise other).2
  simp only [List.mem_cons, List.not_mem_nil, or_false] at listed
  rcases listed with status | status | status | status
  · rcases h.invalid_iff.1 status with ⟨message, unread⟩ | ⟨e, brings⟩
    · cases read.symm.trans unread
    · exact ⟨_, brings⟩
  · obtain ⟨available, requested, brings⟩ := h.insufficient_iff.1 status
    exact ⟨_, brings⟩
  · obtain ⟨e, brings | brings⟩ := h.inventory_iff.1 status <;> exact ⟨_, brings⟩
  · obtain ⟨f, brings⟩ := h.persistence_iff.1 status
    exact ⟨_, brings⟩

/-- An order that could be read is taken in just when nothing is in its way. -/
theorem Answered.created_iff_admissible {d d' : Depot} {answer : Response} {request : OrderRequest}
    (h : Answered s r d answer d') (read : readBody OrderRequest r = .ok request) :
    answer.status = 201 ↔ Admissible request.trimmed d := by
  obtain ⟨res, d₁, cs, run, admission⟩ := createOrder_admission s.createdTopic request d
  rw [← admission.isOk_iff]
  constructor
  · intro created
    cases res with
    | ok id => exact ⟨id, rfl⟩
    | error e =>
      have status := h.status_of_error ⟨request, read, by rw [run]⟩
      rw [created] at status
      cases e <;> cases status
  · rintro ⟨id, rfl⟩
    apply Decidable.byContradiction
    intro other
    obtain ⟨e, request', read', failed⟩ := h.exists_error read other
    cases read.symm.trans read'
    rw [run] at failed
    cases failed

theorem postOrder_answered (s : OrderSettings) (r : Request) (d : Depot) :
    ∃ answer d', postOrder s r d = (answer, d') ∧ Answered s r d answer d' := by
  unfold postOrder
  cases hread : readBody OrderRequest r with
  | error message =>
    have none : ∀ res, ¬ Brings s r d res := by
      rintro res ⟨request, hr, -⟩
      cases hread.symm.trans hr
    refine ⟨.error 400 message, d, rfl, ?_⟩
    constructor <;> simp [none, hread, Response.error, Response.json]
  | ok request =>
    obtain ⟨res, d', cs, run, admission⟩ := createOrder_admission s.createdTopic request d
    have one : ∀ res', Brings s r d res' ↔ res = res' := by
      intro res'
      unfold Brings
      simp [hread, run]
    dsimp only
    rw [bind_eq run]
    cases res with
    | error e =>
      have orders := (admission.unkept rfl).orders
      refine ⟨.error (intakeStatus e) e.message, d', rfl, ?_⟩
      cases e <;> constructor <;> simp [one, hread, orders, intakeStatus, Response.error, Response.json]
    | ok id =>
      refine ⟨.json 201 (printMembers [("order_id", Codec.uuid.print id)]), d', rfl, ?_⟩
      cases admission
      constructor <;> simp [one, hread, Response.json]

/-- A posted request is answered by the handler of its route, so that scripts of any origin may read the answer. -/
theorem respond_post {path : String} {handler : Request → Work Response}
    {others : List (String × (Request → Work Response))}
    {d d' : Depot} {answer : Response} (method : r.method = "POST")
    (route : Router.route? (routes s) r = some ⟨path, ("POST", handler) :: others⟩)
    (run : handler r d = (answer, d')) :
    respond s r d = (Router.openToAll answer, d') := by
  exact Router.respond_eq method (by decide) route rfl run

theorem respond_postOrder {d d' : Depot} {answer : Response} (method : r.method = "POST")
    (path : r.target.path = Utf8.ofString "/orders") (run : postOrder s r d = (answer, d')) :
    respond s r d = (Router.openToAll answer, d') := by
  have route : Router.route? (routes s) r = some ⟨"/orders", [("POST", postOrder s), ("GET", getOrders)]⟩ := by
    unfold Router.route? routes
    exact List.find?_cons_of_pos (by simp [path])
  exact respond_post method route run

end OrderService

/-- Taking in an order succeeds just when nothing is in its way, and leaves what the stage says at which it breaks
off. Over HTTP it is answered by the same. -/
theorem createOrder_stages (s : OrderSettings) (d : Depot) :
    (∀ request, ∃ r d' cs, createOrder s.createdTopic request d = (r, d') ∧
      Admission s.createdTopic request.trimmed d r cs d' ∧
      ((∃ id, r = .ok id) ↔ Admissible request.trimmed d) ∧
      (∀ id, r = .ok id → (d'.orders.map (·.id)).count id = (d.orders.map (·.id)).count id + 1) ∧
      ∀ e, r = .error e → Unkept request.trimmed d e d') ∧
    ∀ query headers body, ∃ answer d',
      OrderService.respond s ⟨"POST", ⟨Utf8.ofString "/orders", query⟩, headers, body⟩ d = (answer, d') ∧
      OrderService.Answered s ⟨"POST", ⟨Utf8.ofString "/orders", query⟩, headers, body⟩ d answer d' := by
  refine ⟨fun request => ?_, fun query headers body => ?_⟩
  · obtain ⟨r, d', cs, run, admission⟩ := createOrder_admission s.createdTopic request d
    exact ⟨r, d', cs, run, admission, admission.isOk_iff, fun id hr => admission.count_orders hr,
      fun e hr => admission.unkept hr⟩
  · obtain ⟨answer, d', run, answered⟩ := OrderService.postOrder_answered s
      ⟨"POST", ⟨Utf8.ofString "/orders", query⟩, headers, body⟩ d
    exact ⟨_, d', OrderService.respond_postOrder rfl rfl run, answered.openToAll⟩

/-- Four pieces, ordered by a seller written with a blank. -/
def fourPieces : OrderRequest := ⟨"t1", " s1", "h1", "k1", 4⟩

/-- Where ten are on hand, an order of four is taken in and named. -/
theorem createOrder_stages_of_four :
    ∃ answer d' o,
      OrderService.respond twoAttempts ⟨"POST", ⟨Utf8.ofString "/orders", none⟩, [Http.documentHeader],
        Json.Record.encode fourPieces⟩ tenPieces = (answer, d') ∧
      answer.status = 201 ∧ d'.orders = [o] ∧
      answer.body = Utf8.encode (Json.printMembers [("order_id", Json.Codec.uuid.print o.id)]) := by
  obtain ⟨answer, d', run, answered⟩ :=
    (createOrder_stages twoAttempts tenPieces).2 none [Http.documentHeader] (Json.Record.encode fourPieces)
  have admissible : Admissible fourPieces.trimmed tenPieces :=
    ⟨Program.eq_ok_of_toOption (by decide +kernel), rfl,
      ⟨⟨"h1", "k1", 10, 0, none⟩, by decide +kernel, by decide⟩, rfl, rfl⟩
  have created : answer.status = 201 :=
    (answered.created_iff_admissible (OrderRequest.readBody_encode (by decide +kernel))).2 admissible
  obtain ⟨o, stored⟩ := answered.created_iff.1 created
  exact ⟨answer, d', o, run, created, stored, answered.created_body o stored⟩

end Fulfilment
