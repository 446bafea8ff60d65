import Fulfilment.Proofs.Order.Lifecycle
import Fulfilment.Proofs.Order.Submission
import Fulfilment.Proofs.Text.Utf8

/-!
# Jobs submitted again

A job that the service has published names a file that is there (`OrderService.Queued`). Submitted again, it is
accepted if its key has no two dots in a row. A job that was submitted has no such key, but that of an upload has one
when the name of the file has two dots in a row: it is published all the same, and refused when it is submitted.
-/

namespace Fulfilment

open Program (Along bind_eq)

section

open Json

theorem BulkJob.encode_inj {job job' : BulkJob} (h : Record.encode job = Record.encode job') : job = job' := by
  have hread := job.lawful.parse_encode
  rw [h, job'.lawful.parse_encode] at hread
  cases hread
  rfl

/-- The text of an announced order is not that of a job: its first member has another name. -/
theorem OrderCreated.encode_ne_job (e : OrderCreated) (job : BulkJob) : Record.encode e ≠ Record.encode job := by
  intro h
  -- behind the brace and the quote the third character is the first of that name
  have third := congrArg (·[2]?) (Utf8.encode_inj h)
  simp only [Record.print, printMembers, Record.fields, Record.toRow, printRow, List.map_cons, Field.required,
    printText, List.intercalate_cons_cons, List.cons_append] at third
  simp [escapeChar] at third

end

theorem Reserving.silent {d : Depot} {tenantId hubId skuId : String} {quantity : Int64} {rule : AvailabilityRule}
    {r : Except InventoryError ReserveOutcome} {cs : List Call}
    (h : Reserving d tenantId hubId skuId quantity rule r cs) : cs.filterMap Call.told? = [] := by
  cases h <;> rfl

namespace OrderService

open Http Json

variable {s : OrderSettings} {r q : Request} {d d' : Depot} {job : BulkJob} {cs : List Call} {answer : Response}
  {topic key message bucket name : String} {content : Bytes}

/-! ### Keys -/

/-- There are two dots in a row. -/
def Dotted (key : String) : Prop := ['.', '.'] <:+: key.toList

theorem dotted_uploadKey {now : Instant} {id : Uuid} : Dotted (uploadKey now id name) ↔ Dotted name := by
  unfold Dotted
  rw [← hasDoubleDot_iff, hasDoubleDot_uploadKey, hasDoubleDot_iff]

theorem dotted_nextKey : Dotted (nextKey d name) ↔ Dotted name := dotted_uploadKey

theorem blank_uploadKey (now : Instant) (id : Uuid) (name : String) : blank (uploadKey now id name) = false := by
  have folder : "uploads/".toList.all isBlank = false := by decide
  rw [blank, toList_uploadKey, List.all_append, folder, Bool.false_and]

theorem jobFault?_eq_none_iff :
    jobFault? job = none ↔ (blank job.bucket = false ∧ blank job.key = false) ∧ ¬ Dotted job.key := by
  have dots : hasDoubleDot job.key.toList = true ↔ Dotted job.key := hasDoubleDot_iff
  unfold jobFault?
  split
  · rename_i hblank
    rw [Bool.or_eq_true] at hblank
    rcases hblank with h | h <;> simp [h]
  · rename_i hfull
    rw [Bool.or_eq_true, not_or, Bool.not_eq_true, Bool.not_eq_true] at hfull
    split
    · rename_i hdots
      simp [dots.1 hdots]
    · rename_i hclean
      exact iff_of_true rfl ⟨hfull, fun h => hclean (dots.2 h)⟩

theorem jobFault?_of_dotted (hbucket : blank job.bucket = false) (hkey : blank job.key = false) (h : Dotted job.key) :
    jobFault? job = some "key must not contain '..'" := by
  unfold jobFault?
  rw [hbucket, hkey, if_neg (by decide), if_pos (hasDoubleDot_iff.2 h)]

theorem Submits.refused (h : Submits q job) (fault : jobFault? job = some message) :
    respond s q d = (Router.openToAll (.error 400 message), d) := by
  have faulty {job' : BulkJob} (read : readBody BulkJob q = .ok job') : jobFault? job' ≠ none := by
    cases h.read.symm.trans read
    rw [fault]
    exact Option.some_ne_none message
  obtain ⟨answer, cs, d', run, submission⟩ := postBulk_submission s q d
  rw [respond_post h.method (route_bulk h.path) run]
  cases submission with
  | unread read => cases h.read.symm.trans read
  | faulty read fault' =>
    cases h.read.symm.trans read
    cases fault.symm.trans fault'
    rfl
  | unchecked read faultless => exact absurd faultless (faulty read)
  | absent read faultless => exact absurd faultless (faulty read)
  | offered read faultless => exact absurd faultless (faulty read)

/-! ### Jobs that were published -/

/-- What holds of a call by which a job is published in answer to a request: the job names a file that is there. Its
key has two dots in a row just when the file came with the request and its name has them. Submitted again, the job is
accepted just when its key is without. -/
structure Queued (s : OrderSettings) (r : Request) (d d' : Depot) (topic key : String) (job : BulkJob) : Prop where
  topic : topic = s.bulkTopic
  key : key = job.key
  present : d'.blob? job.bucket job.key ≠ none
  dotted_iff : Dotted job.key ↔
    ∃ name content, Encloses s r job.bucket name content ∧ job.key = nextKey d name ∧ Dotted name
  accepted_iff : ∀ q d₂, Submits q job → Ready s job d₂ → ((respond s q d₂).1.status = 202 ↔ ¬ Dotted job.key)
  refused : ∀ q d₂, Submits q job → Dotted job.key →
    respond s q d₂ = (Router.openToAll (.error 400 "key must not contain '..'"), d₂)

/-- Whether a job is refused when it is submitted is up to the dots in its key, if it names something. -/
theorem Queued.of_named (present : d'.blob? job.bucket job.key ≠ none)
    (named : blank job.bucket = false ∧ blank job.key = false)
    (dotted : Dotted job.key → ∃ name content, Encloses s r job.bucket name content ∧ job.key = nextKey d name ∧
      Dotted name) : Queued s r d d' s.bulkTopic job.key job where
  topic := rfl
  key := rfl
  present := present
  dotted_iff := by
    refine ⟨dotted, ?_⟩
    rintro ⟨name, content, -, hkey, hname⟩
    rw [hkey]
    exact dotted_nextKey.2 hname
  accepted_iff q d₂ submits ready := by
    constructor
    · intro status hdots
      rw [submits.refused (jobFault?_of_dotted named.1 named.2 hdots)] at status
      simp [Router.openToAll, Response.error, Response.json, Response.withHeader] at status
    · intro clean
      exact submits.accepted (jobFault?_eq_none_iff.2 ⟨named, clean⟩) ready
  refused q d₂ submits hdots := submits.refused (jobFault?_of_dotted named.1 named.2 hdots)

/-- The calls publish no jobs but such as are told of by `Queued`. -/
def Queues (s : OrderSettings) (r : Request) (d : Depot) (cs : List Call) (d' : Depot) : Prop :=
  ∀ topic key (job : BulkJob), .publish topic key (Record.encode job) true ∈ cs → Queued s r d d' topic key job

theorem Queues.of_silent (h : cs.filterMap Call.told? = []) : Queues s r d cs d' := by
  intro topic key job hc
  rw [List.filterMap_eq_nil_iff] at h
  cases h _ hc

theorem Queues.of_offered (cs : List Call) (silent : cs.filterMap Call.told? = []) {taken : Bool}
    (queued : Queued s r d d' s.bulkTopic job.key job) : Queues s r d (cs ++ [offer s job taken]) d' := by
  have none : Queues s r d cs d' := .of_silent silent
  intro topic key job' hc
  rcases List.mem_append.1 hc with hc | hc
  · exact none topic key job' hc
  · have heq := List.mem_singleton.1 hc
    rw [offer, Call.publish.injEq] at heq
    obtain ⟨rfl, rfl, hjob, -⟩ := heq
    rw [BulkJob.encode_inj hjob]
    exact queued

theorem Submission.queues (h : Submission s r d answer cs d') : Queues s r d cs d' := by
  cases h with
  | unread => exact .of_silent rfl
  | faulty => exact .of_silent rfl
  | unchecked => exact .of_silent rfl
  | absent => exact .of_silent rfl
  | @offered job content read faultless up present =>
    obtain ⟨named, clean⟩ := jobFault?_eq_none_iff.1 faultless
    refine .of_offered [_] rfl (.of_named ?_ named fun h => absurd h clean)
    show d.blob? job.bucket job.key ≠ none
    simp [present]

theorem Upload.queues (named : ∀ bucket, s.uploadBucket = some bucket → blank bucket = false)
    (h : Upload s r d answer cs d') : Queues s r d cs d' := by
  cases h with
  | refused => exact .of_silent rfl
  | unstored => exact .of_silent rfl
  | @offered bucket name content encloses up =>
    refine .of_offered [_] rfl (.of_named ?_ ⟨named bucket encloses.bucket, blank_uploadKey _ _ _⟩ fun h => ?_)
    · show (kept d bucket name content).blob? bucket (nextKey d name) ≠ none
      simp [blob?_kept]
    · exact ⟨name, content, encloses, rfl, dotted_nextKey.1 h⟩

/-! ### Orders -/

/-- Taking in an order publishes no job. -/
theorem Creating.queues {request : OrderRequest} {res : Except IntakeError Uuid}
    (h : Creating s.createdTopic request d res cs) : Queues s r d cs d' := by
  cases h with
  | invalid => exact .of_silent rfl
  | notReserved _ reserving => exact .of_silent reserving.silent
  | insufficient _ reserving => exact .of_silent reserving.silent
  | notStored _ reserving =>
    refine .of_silent ?_
    rw [List.filterMap_append, reserving.silent]
    rfl
  | @stored _ _ cs told _ reserving =>
    have none : Queues s r d cs d' := .of_silent reserving.silent
    intro topic key job hc
    rcases List.mem_append.1 hc with hc | hc
    · exact none topic key job hc
    · -- of the calls that store the order, only the one that announces it publishes
      rcases List.mem_cons.1 hc with hc | hc
      · cases hc
      · have heq := List.mem_singleton.1 hc
        rw [Order.announcing, Call.publish.injEq] at heq
        exact absurd heq.2.2.1.symm (OrderCreated.encode_ne_job _ job)

/-! ### Whatever is asked -/

/-- What becomes of the depot while a request is answered: calls are made, of which `Queues` holds. -/
def Answering (s : OrderSettings) (r : Request) (d d' : Depot) : Prop :=
  ∃ cs, d'.calls = d.calls ++ cs ∧ Queues s r d cs d'

theorem Answering.refl (d : Depot) : Answering s r d d := ⟨[], (List.append_nil _).symm, .of_silent rfl⟩

theorem postOrder_answering (s : OrderSettings) (r : Request) : Along (Answering s r) (postOrder s r) := by
  intro d
  unfold postOrder
  cases readBody OrderRequest r with
  | error message => exact .refl d
  | ok request =>
    obtain ⟨res, d', cs, run, creating, booked⟩ := createOrder_spec s.createdTopic request d
    dsimp only
    rw [bind_eq run]
    cases res <;> exact ⟨cs, booked.calls, Creating.queues creating⟩

theorem getOrders_answering (s : OrderSettings) (r : Request) : Along (Answering s r) (getOrders r) := by
  have idle : Along (· = ·) (getOrders r) := by
    unfold getOrders
    cases readQuery OrderFilter r with
    | error message => exact fun _ => rfl
    | ok filter =>
      have listed : Along (· = ·) (Depot.listOrders filter) := by
        intro d
        unfold Depot.listOrders
        split <;> rfl
      refine Along.bind (R := (· = ·)) (fun h h' => h.trans h') listed fun result => ?_
      cases result <;> exact fun _ => rfl
  intro d
  rw [← idle d]
  exact .refl d

theorem postBulk_answering (s : OrderSettings) (r : Request) : Along (Answering s r) (postBulk s r) := by
  intro d
  obtain ⟨answer, cs, d', run, submission⟩ := postBulk_submission s r d
  rw [run]
  exact ⟨cs, submission.settled.calls, submission.queues⟩

theorem postUpload_answering (named : ∀ bucket, s.uploadBucket = some bucket → blank bucket = false) (r : Request) :
    Along (Answering s r) (postUpload s r) := by
  intro d
  obtain ⟨answer, cs, d', run, upload⟩ := postUpload_upload s r d
  rw [run]
  exact ⟨cs, upload.settled.calls, upload.queues named⟩

theorem respond_answering (named : ∀ bucket, s.uploadBucket = some bucket → blank bucket = false) (r : Request) :
    Along (Answering s r) (respond s r) :=
  along_respond Answering.refl (postOrder_answering s r) (getOrders_answering s r) (postBulk_answering s r)
    (postUpload_answering named r)

/-- Whatever is asked, a job that is published names a file that is there; submitted again it is refused just when
there are two dots in a row in its key, and they are there just when they are in the name of a file that was uploaded.
Such an upload is stored and queued like any other. -/
theorem respond_queues (s : OrderSettings) (named : ∀ bucket, s.uploadBucket = some bucket → blank bucket = false)
    (d : Depot) :
    (∀ r, ∃ answer cs d', respond s r d = (answer, d') ∧ d'.calls = d.calls ++ cs ∧
      ∀ topic key (job : BulkJob), .publish topic key (Record.encode job) true ∈ cs → Queued s r d d' topic key job) ∧
    ∀ query headers body bucket name content,
      Encloses s ⟨"POST", ⟨Utf8.ofString "/orders/upload", query⟩, headers, body⟩ bucket name content →
      d.puts.strikes = false → d.bus.refuses s.bulkTopic = false →
      ∃ d', respond s ⟨"POST", ⟨Utf8.ofString "/orders/upload", query⟩, headers, body⟩ d =
          (Router.openToAll (jobAnswer ⟨bucket, nextKey d name⟩ true), d') ∧
        d'.calls = d.calls ++
          [.blobPut bucket (nextKey d name) content true, offer s ⟨bucket, nextKey d name⟩ true] := by
  refine ⟨fun r => ?_, fun query headers body bucket name content encloses up bus => ?_⟩
  · obtain ⟨cs, calls, queues⟩ := respond_answering named r d
    exact ⟨_, cs, _, rfl, calls, queues⟩
  · have run := storeUpload_of_up s bucket name content up
    rw [← encloses.postUpload_eq, bus] at run
    refine ⟨_, respond_post rfl (route_upload rfl) run, ?_⟩
    show d.calls ++ [_] ++ [offer s _ (!d.bus.refuses s.bulkTopic)] = _
    rw [bus, List.append_assoc]
    rfl

/-- A service that takes uploads. -/
def uploading : OrderSettings := { twoAttempts with uploadBucket := some "b" }

/-- The request with a file of a name in which there are two dots in a row. -/
def dottedUpload : Request where
  method := "POST"
  target := ⟨Utf8.ofString "/orders/upload", none⟩
  headers := [("content-type", Utf8.ofString "multipart/form-data; boundary=X")]
  body := Utf8.ofString
    "--X\r\ncontent-disposition: form-data; name=\"file\"; filename=\"a..b.csv\"\r\n\r\nrow\r\n--X--\r\n"

theorem encloses_dottedUpload : Encloses uploading dottedUpload "b" "a..b.csv" (Utf8.ofString "row") := by
  have bounded : dottedUpload.mediaType?.bind MediaType.boundary? = some ['X'] := by decide +kernel
  have file : uploadedFile uploading ['X'] dottedUpload.body = .ok ("a..b.csv", Utf8.ofString "row") :=
    Program.eq_ok_of_toOption (by decide +kernel)
  obtain ⟨short, nonempty, part, path, first, hpath, names, hcontent⟩ := uploadedFile_ok_iff.1 file
  exact ⟨rfl, short, ⟨['X'], part, path, bounded, first, hpath, names, hcontent⟩, nonempty⟩

/-- A file of such a name is queued, and what was queued is refused when it is submitted. -/
theorem respond_queues_of_dotted :
    (∀ bucket, uploading.uploadBucket = some bucket → blank bucket = false) ∧
      ∃ (job : BulkJob) (answer : Response) (d' : Depot), respond uploading dottedUpload tenPieces = (answer, d') ∧
        answer.status = 202 ∧ offer uploading job true ∈ d'.calls ∧ Dotted job.key ∧
        respond uploading (submission job) d' = (Router.openToAll (.error 400 "key must not contain '..'"), d') := by
  have named : ∀ bucket, uploading.uploadBucket = some bucket → blank bucket = false := by
    intro bucket h
    cases h
    decide
  obtain ⟨jobs, uploads⟩ := respond_queues uploading named tenPieces
  obtain ⟨d', run, calls⟩ := uploads none dottedUpload.headers dottedUpload.body "b" "a..b.csv" (Utf8.ofString "row")
    encloses_dottedUpload rfl rfl
  obtain ⟨answer, cs, d'', run', calls', queued⟩ := jobs dottedUpload
  cases run'.symm.trans run
  rw [calls] at calls'
  rw [← List.append_cancel_left calls'] at queued
  have dotted : Dotted (nextKey tenPieces "a..b.csv") := dotted_nextKey.2 (hasDoubleDot_iff.1 (by decide))
  have again := (queued uploading.bulkTopic _ ⟨"b", nextKey tenPieces "a..b.csv"⟩
    (List.mem_cons_of_mem _ (List.mem_singleton_self _))).refused
    (submission ⟨"b", nextKey tenPieces "a..b.csv"⟩) d' (submits_submission (by decide +kernel)) dotted
  have offered : offer uploading ⟨"b", nextKey tenPieces "a..b.csv"⟩ true ∈ d'.calls := by simp [calls]
  exact ⟨named, ⟨"b", nextKey tenPieces "a..b.csv"⟩, _, d', run, rfl, offered, dotted, again⟩

end OrderService

end Fulfilment
