import Fulfilment.Proofs.Bulk.Account
import Fulfilment.Proofs.Event.RoundTrip
import Fulfilment.Proofs.Order.Lifecycle

/-!
# Orders stored and announced

In every run each order that is stored is announced once, and right after it was stored: whatever else the services do
is *quiet*, it neither stores an order nor publishes anything where orders are announced (`Deed.Did.tells`). The
announcement is read back as the event of the order that was stored (`run_announces_orders`), whether it could be
published or not.
-/

namespace Fulfilment

open Depot (Booked)
open Json

/-! ### What was announced -/

namespace Call

/-- The identifier of the order that a call has stored. -/
def stored? : Call → Option Uuid
  | .insert _ id => id
  | _ => none

/-- What a call has published under a topic, or has tried to: the key and the payload. -/
def published? (topic : String) : Call → Option (String × Bytes)
  | .publish topic' key payload _ => if topic' = topic then some (key, payload) else none
  | _ => none

theorem stored?_of_quiet {topic : String} {c : Call} (h : c.quiet topic = true) : c.stored? = none := by
  cases c with
  | insert draft id =>
    cases id with
    | none => rfl
    | some id => cases h
  | _ => rfl

theorem published?_of_quiet {topic : String} {c : Call} (h : c.quiet topic = true) : c.published? topic = none := by
  cases c with
  | publish topic' =>
    simp only [quiet, bne_iff_ne, ne_eq] at h
    exact if_neg h
  | _ => rfl

end Call

theorem storeless_of_quiet {topic : String} {cs : List Call} (h : ∀ c ∈ cs, c.quiet topic = true) : Storeless cs :=
  fun _ _ hc => Bool.noConfusion (h _ hc)

namespace Announced

variable {topic : String} {cs : List Call} {os : List Order}

/-- The orders are those that were stored. -/
theorem filterMap_stored? (h : Announced topic cs os) : cs.filterMap Call.stored? = os.map (·.id) := by
  induction h with
  | none => rfl
  | quiet quiet _ ih => rw [List.filterMap_cons, Call.stored?_of_quiet quiet, ih]
  | order _ _ ih => exact congrArg (_ :: ·) ih

/-- What was published under the topic are their announcements. -/
theorem filterMap_published? (h : Announced topic cs os) :
    cs.filterMap (Call.published? topic) = os.map fun o => (o.id.render, Record.encode o.createdEvent) := by
  induction h with
  | none => rfl
  | quiet quiet _ ih => rw [List.filterMap_cons, Call.published?_of_quiet quiet, ih]
  | @order draft id time _ _ _ _ ih =>
    rw [List.filterMap_cons, List.filterMap_cons, List.map_cons, ← ih]
    simp [Call.published?, Order.announcing]

end Announced

/-! ### Deeds -/

/-- The events of the orders in a depot. -/
def Depot.createdEvents (d : Depot) : List OrderCreated := d.orders.map (·.createdEvent)

/-- By the calls `cs` the orders `os` were stored, and each was announced. -/
structure Tells (topic : String) (d : Depot) (cs : List Call) (os : List Order) (d' : Depot) : Prop where
  announced : Announced topic cs os
  stored : d'.createdEvents = d.createdEvents ++ os.map (·.createdEvent)

namespace Tells

variable {topic : String} {d d₁ d₂ : Depot} {cs cs' : List Call} {os os' : List Order}

theorem trans (h : Tells topic d cs os d₁) (h' : Tells topic d₁ cs' os' d₂) :
    Tells topic d (cs ++ cs') (os ++ os') d₂ := by
  refine ⟨h.announced.append h'.announced, ?_⟩
  rw [h'.stored, h.stored, List.map_append, List.append_assoc]

/-- Where all is quiet, no order is stored. -/
theorem of_quiet (hb : Booked d cs d₁) (h : ∀ c ∈ cs, c.quiet topic = true) : Tells topic d cs [] d₁ := by
  refine ⟨.of_quiet h, ?_⟩
  rw [List.map_nil, List.append_nil]
  exact hb.map_of_storeless (fun _ _ => rfl) (storeless_of_quiet h)

/-- An order is stored and announced after calls that leave the orders alone. -/
theorem of_storing {r : OrderRequest} {told : Bool} (hb : Booked d (cs ++ r.storing topic d told) d₁)
    (h : ∀ c ∈ cs, c.quiet topic = true) (hw : ∀ c ∈ cs, c.writesOrders = false) :
    Tells topic d (cs ++ r.storing topic d told) [d.nextOrder r.draft] d₁ := by
  refine ⟨(Announced.of_quiet h).append (.order told .none), ?_⟩
  unfold Depot.createdEvents
  rw [orders_of_storing hb hw, List.map_append]

end Tells

section

variable {s : OrderSettings} {d d' : Depot} {cs : List Call}

theorem Reserving.quiet {tenantId hubId skuId topic : String} {quantity : Int64} {rule : AvailabilityRule}
    {r : Except InventoryError ReserveOutcome} (h : Reserving d tenantId hubId skuId quantity rule r cs) :
    ∀ c ∈ cs, c.quiet topic = true := by
  cases h <;> simp [Call.quiet]

theorem Creating.tells {topic : String} {request : OrderRequest} {r : Except IntakeError Uuid}
    (h : Creating topic request d r cs) (hb : Booked d cs d') : ∃ os, Tells topic d cs os d' := by
  cases h with
  | invalid => exact ⟨[], .of_quiet hb (by simp)⟩
  | notReserved _ reserving => exact ⟨[], .of_quiet hb (Reserving.quiet reserving)⟩
  | insufficient _ reserving => exact ⟨[], .of_quiet hb (Reserving.quiet reserving)⟩
  | notStored _ reserving =>
    refine ⟨[], .of_quiet hb ?_⟩
    rw [List.forall_mem_append]
    exact ⟨Reserving.quiet reserving, by simp [Call.quiet]⟩
  | stored told _ reserving =>
    exact ⟨_, .of_storing hb (Reserving.quiet reserving) (Reserving.not_writesOrders reserving)⟩

theorem StoringRow.tells {topic : String} {request : OrderRequest} {r : Except RowError Unit}
    (h : StoringRow topic request d r cs) (hb : Booked d cs d') : ∃ os, Tells topic d cs os d' := by
  have one (told : Bool) (hb : Booked d ([] ++ request.storing topic d told) d') :
      ∃ os, Tells topic d (request.storing topic d told) os d' :=
    ⟨_, Tells.of_storing hb (by simp) (by simp)⟩
  cases h with
  | notStored => exact ⟨[], .of_quiet hb (by simp [Call.quiet])⟩
  | notTold => exact one false hb
  | stored => exact one true hb

theorem Finalizing.quiet {topic updatedTopic : String} {e : OrderCreated} {r : Except Failure Finalization}
    (h : Finalizing updatedTopic e d r cs) (hne : updatedTopic ≠ topic) : ∀ c ∈ cs, c.quiet topic = true := by
  cases h <;> simp [Call.quiet, OrderCreated.taking, OrderCreated.telling, hne]

theorem Call.quiet_of_isAside {topic jobTopic : String} {c : Call} (h : c.isAside jobTopic = true)
    (hne : jobTopic ≠ topic) : c.quiet topic = true := by
  cases c with
  | publish topic' =>
    have htopic : topic' = jobTopic := eq_of_beq h
    simp [quiet, htopic, hne]
  | insert => cases h
  | _ => rfl

/-- What is done at once announces each order that it stores. -/
theorem Deed.Did.tells {deed : Deed} (h : deed.Did s d cs d') (hupdated : s.createdTopic ≠ s.updatedTopic)
    (hbulk : s.createdTopic ≠ s.bulkTopic) : ∃ os, Tells s.createdTopic d cs os d' := by
  cases h with
  | create _ fared hb => exact fared.tells hb
  | finalize _ fared hb => exact ⟨[], .of_quiet hb (fared.quiet hupdated.symm)⟩
  | row _ _ fared hb => exact fared.tells hb
  | mark _ hb => exact ⟨[], .of_quiet hb (by simp [Call.quiet])⟩
  | other hb aside => exact ⟨[], .of_quiet hb fun c hc => Call.quiet_of_isAside (aside c hc) hbulk.symm⟩

theorem History.tells {es : List Entry} (h : History s d es d') (hupdated : s.createdTopic ≠ s.updatedTopic)
    (hbulk : s.createdTopic ≠ s.bulkTopic) : ∃ os, Tells s.createdTopic d (es.flatMap (·.calls)) os d' := by
  induction h with
  | none d => exact ⟨[], .of_quiet (.refl d) (by simp)⟩
  | more did _ ih =>
    obtain ⟨os, hos⟩ := did.tells hupdated hbulk
    obtain ⟨os', hos'⟩ := ih
    exact ⟨os ++ os', hos.trans hos'⟩

/-! ### Announcements that fail -/

/-- An order that is taken in is taken in whether it could be announced or not. -/
theorem Creating.isOk_of_publish {topic key : String} {payload : Bytes} {told : Bool} {request : OrderRequest}
    {r : Except IntakeError Uuid} (h : Creating topic request d r cs) (hc : .publish topic key payload told ∈ cs) :
    ∃ o : Order, r = .ok o.id ∧ .insert request.trimmed.draft (some o.id) ∈ cs ∧
      .publish topic key payload told = o.announcing topic told := by
  -- nothing is published under the topic while all is quiet
  have loud : ∀ {cs' : List Call}, (∀ c ∈ cs', c.quiet topic = true) → .publish topic key payload told ∉ cs' := by
    intro cs' hq hc
    have := hq _ hc
    simp [Call.quiet] at this
  cases h with
  | invalid => cases hc
  | notReserved _ reserving => exact absurd hc (loud (Reserving.quiet reserving))
  | insufficient _ reserving => exact absurd hc (loud (Reserving.quiet reserving))
  | notStored _ reserving =>
    rcases List.mem_append.1 hc with hc | hc
    · exact absurd hc (loud (Reserving.quiet reserving))
    · simp at hc
  | stored told' _ reserving =>
    rcases List.mem_append.1 hc with hc | hc
    · exact absurd hc (loud (Reserving.quiet reserving))
    · refine ⟨d.nextOrder request.trimmed.draft, rfl, List.mem_append_right _ List.mem_cons_self, ?_⟩
      rcases List.mem_cons.1 hc with hc | hc
      · cases hc
      · have hsame := List.mem_singleton.1 hc
        cases hsame
        rfl

/-- A row of which the announcement fails is set aside for that. -/
theorem TakingRow.error_of_publish {b : BulkSettings} {c : Columns} {row : Row} {topic key : String} {payload : Bytes}
    {res : Except RowError Unit} (h : TakingRow b c row d res cs) (hc : .publish topic key payload false ∈ cs) :
    ∃ f, res = .error (.publish f) := by
  have silent : ∀ {r : OrderRequest} {v : Except InventoryError Unit} {cs' : List Call}, VerifyingRow b r d v cs' →
      .publish topic key payload false ∉ cs' := by
    intro r v cs' h
    cases h <;> simp
  cases h with
  | invalid => cases hc
  | unverified _ verifying => exact absurd hc (silent verifying)
  | storing _ verifying storing =>
    rcases List.mem_append.1 hc with hc | hc
    · exact absurd hc (silent verifying)
    · cases storing with
      | notStored => simp at hc
      | notTold => exact ⟨_, rfl⟩
      | stored => simp [OrderRequest.storing, Order.announcing] at hc

/-- What is noted of the turns of a file, and the rows set aside, tell of the turn. -/
theorem Ingesting.noted {b : BulkSettings} {job : BulkJob} {res : Except Failure BulkReport} {ts : List Turn}
    (h : Ingesting b job d res ts d') {t : Turn} {e : RowError} (ht : t ∈ ts) (he : t.result = .error e) :
    t.row ∈ rejectedRows ts ∧ ⟨t.number, e.message⟩ ∈ d'.rejections := by
  refine ⟨mem_rejectedRows.2 ⟨t, ht, Turn.rejected_of_error he, rfl⟩, ?_⟩
  cases h with
  | notFetched => cases ht
  | refused => cases ht
  | taken taking =>
    have hnoted : t.rejection? = some ⟨t.number, e.message⟩ := by simp [Turn.rejection?, he]
    rw [taking.noted, taking.turns.rejections]
    exact List.mem_append_right _ (List.mem_filterMap.2 ⟨t, ht, hnoted⟩)

theorem Ingesting.took {b : BulkSettings} {job : BulkJob} {res : Except Failure BulkReport} {ts : List Turn}
    (h : Ingesting b job d res ts d') : ∀ t ∈ ts, ∃ c, t.Took b c := by
  intro t ht
  cases h with
  | notFetched => cases ht
  | refused => cases ht
  | taken taking => exact ⟨_, taking.turns.took t ht⟩

end

/-! ### Runs -/

/-- Between two states of a depot these orders were stored, each of them was announced right after, and nothing else
was announced. -/
structure AllAnnounced (topic : String) (d : Depot) (cs : List Call) (os : List Order) (d' : Depot) : Prop where
  calls : d'.calls = d.calls ++ cs
  /-- Right behind each call that stored an order stands the one that announces it. -/
  announced : Announced topic cs os
  inserts : cs.filterMap Call.stored? = os.map (·.id)
  publishes : cs.filterMap (Call.published? topic) = os.map fun o => (o.id.render, Record.encode o.createdEvent)
  /-- What is announced is read as the order, field by field. -/
  decoded : ∀ o ∈ os, Record.parse (Record.encode o.createdEvent) =
    .ok (⟨o.id, o.tenantId, o.sellerId, o.hubId, o.skuId, o.quantity, o.createdAt⟩ : OrderCreated)
  stored : d'.createdEvents = d.createdEvents ++ os.map (·.createdEvent)

/-- In every run, whatever fails, the orders stored and the announcements tried are the same, one after the other. An
announcement that fails leaves an order that was taken in, and sets the row of a file aside. -/
theorem run_announces_orders (s : OrderSettings) (d : Depot) (commands : List Command)
    (hupdated : s.createdTopic ≠ s.updatedTopic) (hbulk : s.createdTopic ≠ s.bulkTopic) :
    (∃ cs os, AllAnnounced s.createdTopic d cs os (d.run s commands)) ∧
    (∀ request d₀, ∃ r cs d₁, createOrder s.createdTopic request d₀ = (r, d₁) ∧ d₁.calls = d₀.calls ++ cs ∧
      ∀ key payload, .publish s.createdTopic key payload false ∈ cs →
        ∃ o : Order, r = .ok o.id ∧ .insert request.trimmed.draft (some o.id) ∈ cs ∧
          .publish s.createdTopic key payload false = o.announcing s.createdTopic false) ∧
    ∀ job d₀, ∃ res ts d₁, ingest s.bulk job d₀ = (res, d₁) ∧ Ingesting s.bulk job d₀ res ts d₁ ∧
      ∀ t ∈ ts, ∀ key payload, .publish s.createdTopic key payload false ∈ t.calls →
        t.row ∈ rejectedRows ts ∧
          ∃ f, t.result = .error (.publish f) ∧ ⟨t.number, (RowError.publish f).message⟩ ∈ d₁.rejections := by
  refine ⟨?_, fun request d₀ => ?_, fun job d₀ => ?_⟩
  · obtain ⟨es, h, -⟩ := Depot.run_history s d commands
    obtain ⟨os, hos⟩ := h.tells hupdated hbulk
    exact ⟨es.flatMap (·.calls), os,
      { calls := h.booked.calls
        announced := hos.announced
        inserts := hos.announced.filterMap_stored?
        publishes := hos.announced.filterMap_published?
        decoded := fun o _ => o.createdEvent.parse_encode
        stored := hos.stored }⟩
  · obtain ⟨r, d₁, cs, hr, fared, hb⟩ := createOrder_spec s.createdTopic request d₀
    exact ⟨r, cs, d₁, hr, hb.calls, fun key payload hc => fared.isOk_of_publish hc⟩
  · obtain ⟨res, ts, d₁, hi, h⟩ := ingest_spec s.bulk job d₀
    refine ⟨res, ts, d₁, hi, h, fun t ht key payload hc => ?_⟩
    obtain ⟨c, took⟩ := h.took t ht
    obtain ⟨f, hf⟩ := took.fared.error_of_publish hc
    obtain ⟨hrow, hnoted⟩ := h.noted ht hf
    exact ⟨hrow, f, hf, hnoted⟩

/-- Two orders, of which the first cannot be announced. -/
def twoOrdered : List Command :=
  [.set [.nextPublishing 1], .create ⟨"t1", "s1", "h1", "k1", 4⟩, .create ⟨"t1", "s2", "h1", "k1", 2⟩, .pump]

theorem run_announces_two_orders :
    twoAttempts.createdTopic ≠ twoAttempts.updatedTopic ∧ twoAttempts.createdTopic ≠ twoAttempts.bulkTopic ∧
      (tenPieces.run twoAttempts twoOrdered).orders.map (·.sellerId) = ["s1", "s2"] ∧
      (tenPieces.run twoAttempts twoOrdered).calls.countP (·.publishes twoAttempts.createdTopic) = 1 ∧
      ∃ cs os, AllAnnounced twoAttempts.createdTopic tenPieces cs os (tenPieces.run twoAttempts twoOrdered) := by
  have hupdated : twoAttempts.createdTopic ≠ twoAttempts.updatedTopic := by decide
  have hbulk : twoAttempts.createdTopic ≠ twoAttempts.bulkTopic := by decide
  exact ⟨hupdated, hbulk, by decide +kernel, by decide +kernel,
    (run_announces_orders twoAttempts tenPieces twoOrdered hupdated hbulk).1⟩

end Fulfilment
