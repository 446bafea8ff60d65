import Fulfilment.Order.Api
import Fulfilment.Proofs.Event.RoundTrip
import Fulfilment.Webhook.Dispatch

/-!
# From publisher to reader

A record is published as one message that holds its text, and whoever waits for the message works on the record that
was published: the finalizer and the dispatcher on the event of an order, the bulk worker on the job
(`messages_read_back`).
-/

namespace Fulfilment

open Json
open Program (bind_eq)

/-- The message as which a record is published. -/
def Message.carrying {α : Type} [Record α] (topic key : String) (a : α) : Message :=
  ⟨topic, some key, Record.encode a⟩

/-- The program offers one message to the bus, and it waits there if the bus takes it. -/
def Offers {α : Type} (m : Message) (p : Work α) : Prop :=
  ∀ d, (p d).2.bus.published = d.bus.published ++ if d.bus.refuses m.topic then [] else [m]

/-- The program, of whose result only a failure is told. -/
def quietly {σ α : Type} (p : StateM σ (Except Failure α)) : StateM σ (Except Failure Unit) := do
  return (← p).map fun _ => ()

/-! ### Publishers -/

theorem Depot.offers_publishRecord {α : Type} [Record α] (topic key : String) (a : α) :
    Offers (.carrying topic key a) (publishRecord topic key a) := by
  intro d
  rw [publishRecord, publish, Bus.publish, Message.carrying]
  dsimp only
  split
  · exact (List.append_nil _).symm
  · rfl

theorem Offers.bind {α β : Type} {m : Message} {p : Work α} {f : α → Work β} (hp : Offers m p)
    (idle : ∀ a d, (f a d).2 = d) : Offers m (p >>= f) := by
  intro d
  rw [bind_eq (show p d = ((p d).1, (p d).2) from rfl), idle]
  exact hp d

theorem OrderService.offers_queueJob (s : OrderSettings) (job : BulkJob) :
    Offers (.carrying s.bulkTopic job.key job) (queueJob s job) := by
  refine (Depot.offers_publishRecord s.bulkTopic job.key job).bind fun r d => ?_
  cases r <;> rfl

/-! ### Readers -/

section

variable {topic key : String}

theorem finalizer_of_parse {m : Message} {e : OrderCreated} (updatedTopic : String)
    (h : Record.parse m.payload = .ok e) :
    finalizer updatedTopic m = quietly (finalize updatedTopic e) := by
  rw [finalizer, h]
  refine bind_congr fun r => ?_
  cases r <;> rfl

theorem finalizer_carrying (updatedTopic : String) (e : OrderCreated) :
    finalizer updatedTopic (.carrying topic key e) = quietly (finalize updatedTopic e) :=
  finalizer_of_parse updatedTopic e.parse_encode

theorem bulkWorker_carrying (s : BulkSettings) (job : BulkJob) :
    bulkWorker s (.carrying topic key job) = quietly (ingest s job) := by
  rw [bulkWorker, Message.carrying, job.lawful.parse_encode]
  refine bind_congr fun r => ?_
  cases r <;> rfl

theorem dispatcher_of_decode {failedTopic : String} {m : Message} {e : LifecycleEvent}
    (h : LifecycleEvent.decode m.topic m.payload = .ok e) :
    dispatcher failedTopic m = quietly (dispatch failedTopic e) := by
  rw [dispatcher, h]
  refine bind_congr fun r => ?_
  cases r <;> rfl

end

/-! ### From one to the other -/

/-- Whoever publishes the event of an order or a job offers one message, and its reader works on that event or job. -/
theorem messages_read_back (topic key : String) :
    (∀ e : OrderCreated,
      Offers (.carrying topic key e) (Depot.publishRecord topic key e) ∧
      Record.parse (Message.carrying topic key e).payload = .ok e ∧
      (∀ updatedTopic, finalizer updatedTopic (.carrying topic key e) = quietly (finalize updatedTopic e)) ∧
      LifecycleEvent.decode Topic.orderCreated (Message.carrying topic key e).payload = .ok (.created e) ∧
      (∀ failedTopic, dispatcher failedTopic (.carrying Topic.orderCreated key e) =
        quietly (dispatch failedTopic (.created e)))) ∧
    (∀ u : OrderUpdated,
      Offers (.carrying topic key u) (Depot.publishRecord topic key u) ∧
      LifecycleEvent.decode Topic.orderUpdated (Message.carrying topic key u).payload = .ok (.updated u) ∧
      (∀ failedTopic, dispatcher failedTopic (.carrying Topic.orderUpdated key u) =
        quietly (dispatch failedTopic (.updated u)))) ∧
    (∀ (s : OrderSettings) (job : BulkJob),
      Offers (.carrying s.bulkTopic job.key job) (OrderService.queueJob s job) ∧
      Record.parse (Message.carrying s.bulkTopic job.key job).payload = .ok job ∧
      bulkWorker s.bulk (.carrying s.bulkTopic job.key job) = quietly (ingest s.bulk job)) := by
  refine ⟨fun e => ?_, fun u => ?_, fun s job => ?_⟩
  · have hdecode := LifecycleEvent.decode_created e
    exact ⟨Depot.offers_publishRecord topic key e, e.parse_encode, fun t => finalizer_carrying t e, hdecode,
      fun _ => dispatcher_of_decode hdecode⟩
  · have hdecode := LifecycleEvent.decode_updated u
    exact ⟨Depot.offers_publishRecord topic key u, hdecode, fun _ => dispatcher_of_decode hdecode⟩
  · exact ⟨OrderService.offers_queueJob s job, job.lawful.parse_encode, bulkWorker_carrying s.bulk job⟩

end Fulfilment
