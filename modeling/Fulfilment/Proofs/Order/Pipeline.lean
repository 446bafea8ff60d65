import Fulfilment.Proofs.Http.Router
import Fulfilment.Proofs.Order.History

/-!
# Histories of runs

Every part of the services, every command and every run has a history (`Depot.run_history`). In that of a file there
is nothing but rows and what is done aside (`ingest_recorded`), and only the command that does so tells the store to
move an order past everyone.
-/

namespace Fulfilment

open Depot (Booked)
open Program (Along)

namespace Deed

/-- What is done when a file is taken in. -/
def OfFile : Deed → Prop
  | row _ | other => True
  | create _ | finalize _ | mark _ => False

/-- What the services do themselves. -/
def OfService : Deed → Prop
  | mark _ => False
  | create _ | finalize _ | row _ | other => True

theorem OfFile.ofService {deed : Deed} (h : deed.OfFile) : deed.OfService := by
  cases deed with
  | mark => exact h
  | _ => trivial

end Deed

variable {s : OrderSettings}

/-! ### Attempts -/

theorem Recorded.attempts {kind : Deed → Prop} {h : Handler Work} (hr : ∀ m, Recorded s kind (h m)) (m : Message)
    (gaveUp : String) (left : Nat) : Recorded s kind (Handler.attempts h m gaveUp left) := by
  induction left with
  | zero =>
    refine (hr m).bind fun r => ?_
    cases r <;> exact .pure _
  | succ left ih =>
    refine (hr m).bind fun r => ?_
    cases r with
    | error f => exact ih
    | ok u => exact .pure _

theorem Recorded.retried {kind : Deed → Prop} {h : Handler Work} (hr : ∀ m, Recorded s kind (h m)) (n : Nat)
    (m : Message) : Recorded s kind (Handler.retried n h m) :=
  .attempts hr m _ _

/-! ### Files -/

theorem snapshot_aside {jobTopic hubId skuId : String} : Aside jobTopic (Depot.inventory.snapshot hubId skuId) := by
  refine (Aside.lookup hubId skuId).bind fun r => ?_
  cases r <;> exact .pure _

theorem verifyRow_aside {jobTopic : String} (b : BulkSettings) (r : OrderRequest) :
    Aside jobTopic (verifyRow b r) := by
  unfold verifyRow
  split
  · refine snapshot_aside.bind fun r => ?_
    cases r <;> exact .pure _
  · exact .pure _

theorem ingestRow_recorded (c : Columns) (fields : Row) : Recorded s Deed.OfFile (ingestRow s.bulk c fields) := by
  unfold ingestRow
  split
  · exact .pure _
  · rename_i r hp
    refine ((verifyRow_aside s.bulk r).recorded trivial).bind fun v => ?_
    cases v with
    | error e => exact .pure _
    | ok u => exact storeRow_recorded hp trivial

theorem ingestRows_recorded (c : Columns) (n : Nat) (rows : List Row) :
    Recorded s Deed.OfFile (ingestRows s.bulk c n rows) := by
  induction rows generalizing n with
  | nil => exact .pure _
  | cons fields rest ih =>
    refine (ingestRow_recorded c fields).bind fun r => ?_
    cases r with
    | ok u => exact ih (n + 1)
    | error e => exact ((Aside.reject n e.message).recorded trivial).bind fun _ => (ih (n + 1)).bind fun _ => .pure _

theorem writeSidecar_aside {jobTopic : String} (job : BulkJob) (header : Row) (rows : List Row) :
    Aside jobTopic (writeSidecar job header rows) := by
  unfold writeSidecar
  split
  · exact .pure _
  · refine Aside.get.bind fun d => (Aside.storeBlob _).bind fun r => ?_
    cases r <;> exact .pure _

theorem ingestTable_recorded (job : BulkJob) (header : Row) (rows : List Row) :
    Recorded s Deed.OfFile (ingestTable s.bulk job header rows) := by
  unfold ingestTable
  split
  · exact .pure _
  · exact (ingestRows_recorded _ 1 rows).bind fun rejected =>
      ((writeSidecar_aside job header rejected).recorded trivial).bind fun _ => .pure _

/-- Taking in a file does nothing but store its rows. -/
theorem ingest_recorded (job : BulkJob) : Recorded s Deed.OfFile (ingest s.bulk job) := by
  refine ((Aside.getBlob job.bucket job.key _).recorded trivial).bind fun r => ?_
  cases r with
  | error f => exact .pure _
  | ok body => exact ingestTable_recorded job _ _

theorem bulkWorker_recorded (m : Message) : Recorded s Deed.OfFile (bulkWorker s.bulk m) := by
  unfold bulkWorker
  split
  · exact .pure _
  · rename_i job _
    refine (ingest_recorded job).bind fun r => ?_
    cases r <;> exact .pure _

theorem retriedBulkWorker_recorded (m : Message) : Recorded s Deed.OfFile (OrderService.retriedBulkWorker s m) :=
  .retried bulkWorker_recorded _ m

/-! ### Announcements -/

theorem finalizer_recorded (m : Message) : Recorded s Deed.OfService (finalizer s.updatedTopic m) := by
  unfold finalizer
  split
  · exact .pure _
  · rename_i e _
    refine (finalize_recorded trivial).bind fun r => ?_
    cases r <;> exact .pure _

theorem retriedFinalizer_recorded (m : Message) : Recorded s Deed.OfService (OrderService.retriedFinalizer s m) :=
  .retried finalizer_recorded _ m

theorem deliver_recorded (messages : List Message) : Recorded s Deed.OfService (OrderService.deliver s messages) := by
  induction messages with
  | nil => exact .pure _
  | cons m rest ih =>
    unfold OrderService.deliver
    split
    · exact (retriedFinalizer_recorded m).bind fun r => ih.bind fun _ => .pure _
    · split
      · have hm : Recorded s Deed.OfService (OrderService.retriedBulkWorker s m) :=
          (retriedBulkWorker_recorded m).mono fun _ => Deed.OfFile.ofService
        exact hm.bind fun r => ih.bind fun _ => .pure _
      · exact ih

/-! ### Routes -/

section Routes

open Http OrderService

variable (r : Request)

theorem postOrder_recorded : Recorded s Deed.OfService (postOrder s r) := by
  unfold postOrder
  split
  · exact .pure _
  · refine (createOrder_recorded trivial).bind fun r => ?_
    cases r <;> exact .pure _

theorem getOrders_aside : Aside s.bulkTopic (getOrders r) := by
  unfold getOrders
  split
  · exact .pure _
  · refine (Aside.listOrders _).bind fun r => ?_
    cases r <;> exact .pure _

theorem queueJob_aside (job : BulkJob) : Aside s.bulkTopic (queueJob s job) := by
  refine (Aside.publishRecord job.key job).bind fun r => ?_
  cases r <;> exact .pure _

theorem postBulk_aside : Aside s.bulkTopic (postBulk s r) := by
  unfold postBulk
  split
  · exact .pure _
  · rename_i job _
    split
    · exact .pure _
    · refine (Aside.blobExists _ _).bind fun r => ?_
      match r with
      | .error _ => exact .pure _
      | .ok false => exact .pure _
      | .ok true => exact queueJob_aside job

theorem storeUpload_aside (bucket name : String) (body : Bytes) :
    Aside s.bulkTopic (storeUpload s bucket name body) := by
  refine Aside.get.bind fun d => Aside.nextUpload.bind fun id => (Aside.storeBlob _).bind fun r => ?_
  cases r with
  | error f => exact .pure _
  | ok u => exact queueJob_aside _

theorem postUpload_aside : Aside s.bulkTopic (postUpload s r) := by
  unfold postUpload
  split
  · exact .pure _
  · split
    · exact .pure _
    · split
      · exact .pure _
      · exact storeUpload_aside _ _ _

/-- What every handler of the service does to the depot, its answer does. -/
theorem along_respond {R : Depot → Depot → Prop} {r : Request} (refl : ∀ d, R d d) (hpost : Along R (postOrder s r))
    (hget : Along R (getOrders r)) (hbulk : Along R (postBulk s r)) (hupload : Along R (postUpload s r)) :
    Along R (OrderService.respond s r) := by
  refine Router.along_respond refl ?_
  simp only [routes, healthRoute, List.forall_mem_cons, List.not_mem_nil, false_implies, implies_true, and_true]
  exact ⟨⟨hpost, hget⟩, hbulk, hupload, refl⟩

theorem respond_recorded : Recorded s Deed.OfService (OrderService.respond s r) :=
  along_respond (fun d => Recorded.pure () d) (postOrder_recorded r) ((getOrders_aside r).recorded trivial)
    ((postBulk_aside r).recorded trivial) ((postUpload_aside r).recorded trivial)

end Routes

/-! ### Commands and runs -/

/-- What a command may do: only one that says so moves an order past everyone. -/
def Command.Allows : Command → Deed → Prop
  | .mark _, _ => True
  | _, deed => deed.OfService

theorem Command.perform_recorded (c : Command) : Recorded s c.Allows (c.perform s) := by
  cases c with
  | create r => exact (createOrder_recorded trivial).bind fun _ => .pure _
  | ingest job => exact ((ingest_recorded job).mono fun _ => Deed.OfFile.ofService).bind fun _ => .pure _
  | finalize e => exact (finalize_recorded trivial).bind fun _ => .pure _
  | finalizerMessage m => exact (retriedFinalizer_recorded m).bind fun _ => .pure _
  | bulkMessage m => exact ((retriedBulkWorker_recorded m).mono fun _ => Deed.OfFile.ofService).bind fun _ => .pure _
  | pump => exact (Aside.takePublished.recorded trivial).bind fun ms => (deliver_recorded ms).bind fun _ => .pure _
  | request r => exact (respond_recorded r).bind fun _ => .pure _
  | list f => exact ((Aside.listOrders f).recorded trivial).bind fun _ => .pure _
  | mark id => exact (markNewOrder_recorded trivial).bind fun _ => .pure _
  | getBlob bucket key limit => exact ((Aside.getBlob bucket key limit).recorded trivial).bind fun _ => .pure _
  | set switches => exact ((Aside.set switches).recorded trivial).bind fun _ => .pure _

/-- Every run has a history. Unless the run says so, no order is moved past everyone. -/
theorem Depot.run_history (s : OrderSettings) (d : Depot) (commands : List Command) :
    ∃ es, History s d es (Depot.run s d commands) ∧
      ((∀ id, .mark id ∉ commands) → ∀ x ∈ es, x.deed.OfService) := by
  induction commands generalizing d with
  | nil => exact ⟨[], .none d, fun _ _ h => by cases h⟩
  | cons c rest ih =>
    obtain ⟨es, h, hk⟩ := c.perform_recorded (s := s) d
    obtain ⟨es', h', hk'⟩ := ih (c.perform s d).2
    refine ⟨es ++ es', h.trans h', ?_⟩
    intro hm x hx
    rcases List.mem_append.1 hx with hx | hx
    · have hx := hk x hx
      cases c with
      | mark id => exact absurd (List.mem_cons_self ..) (hm id)
      | _ => exact hx
    · exact hk' (fun id hid => hm id (List.mem_cons_of_mem _ hid)) x hx

end Fulfilment
