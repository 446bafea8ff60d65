import Fulfilment.Proofs.Depot.Files
import Fulfilment.Proofs.Event.Delivery
import Fulfilment.Proofs.Http.Body
import Fulfilment.Proofs.Http.Multipart
import Fulfilment.Proofs.Order.Admission
import Fulfilment.Proofs.Order.Upload

/-!
# Files submitted and uploaded

A request for a file to be taken in may break off at many places, and what comes of it is told in full by
`OrderService.Submission` for a file that is there and by `OrderService.Upload` for one that comes with the request.
The answer is 202 just when a job was published; the file that it names was there by then, and for an upload it holds
the data of the part that was sent (`OrderService.Settled`). No other answer leaves anything behind, but for a file
that could be stored and not queued. A job that is sent as its own document is accepted when its file is there and
nothing is out of order (`OrderService.Submits.accepted`).
-/

namespace Fulfilment

open Program (bind_eq)

/-- The message that a call has published. -/
def Call.told? : Call → Option Message
  | .publish topic key payload true => some ⟨topic, some key, payload⟩
  | _ => none

namespace OrderService

open Http Json

/-! ### Jobs -/

/-- The answer when a job was offered to the bus. -/
def jobAnswer (job : BulkJob) (taken : Bool) : Response :=
  if taken then
    .json 202 (printMembers
      [("bucket", printText job.bucket), ("key", printText job.key), ("status", printText "queued")])
  else .error 500 "Failed to queue bulk job"

/-- The call by which a job is offered to the bus. -/
def offer (s : OrderSettings) (job : BulkJob) (taken : Bool) : Call :=
  .publish s.bulkTopic job.key (Record.encode job) taken

/-- The depot when a job was offered to the bus. -/
def offered (s : OrderSettings) (job : BulkJob) (d : Depot) : Depot :=
  { d with bus := (d.bus.publish (.carrying s.bulkTopic job.key job)).2 }.logged
    (offer s job (!d.bus.refuses s.bulkTopic))

theorem publishRecord_eq (s : OrderSettings) (job : BulkJob) (d : Depot) :
    Depot.publishRecord s.bulkTopic job.key job d =
      (if d.bus.refuses s.bulkTopic then .error (.ofMessage ("broker unavailable for " ++ s.bulkTopic)) else .ok (),
        offered s job d) := by
  unfold Depot.publishRecord Depot.publish offered Message.carrying Bus.publish
  dsimp only
  cases d.bus.refuses s.bulkTopic <;> rfl

theorem queueJob_eq (s : OrderSettings) (job : BulkJob) (d : Depot) :
    queueJob s job d = (jobAnswer job (!d.bus.refuses s.bulkTopic), offered s job d) := by
  unfold queueJob
  rw [bind_eq (publishRecord_eq s job d)]
  cases d.bus.refuses s.bulkTopic <;> rfl

/-! ### A file that is there -/

/-- What comes of a request that names a file: the answer, the calls that were made, and the depot after them. -/
inductive Submission (s : OrderSettings) (r : Request) (d : Depot) : Response → List Call → Depot → Prop
  | unread {message : String} (read : readBody BulkJob r = .error message) :
    Submission s r d (.error 400 message) [] d
  | faulty {job : BulkJob} {message : String} (read : readBody BulkJob r = .ok job)
      (fault : jobFault? job = some message) : Submission s r d (.error 400 message) [] d
  | unchecked {job : BulkJob} (read : readBody BulkJob r = .ok job) (faultless : jobFault? job = none)
      (down : d.checks.strikes = true) :
    Submission s r d (.error 503 "Object storage unavailable") [.blobExists job.bucket job.key none]
      (d.logged (.blobExists job.bucket job.key none))
  | absent {job : BulkJob} (read : readBody BulkJob r = .ok job) (faultless : jobFault? job = none)
      (up : d.checks.strikes = false) (absent : d.blob? job.bucket job.key = none) :
    Submission s r d (.error 400 s!"object {job.bucket}/{job.key} does not exist")
      [.blobExists job.bucket job.key (some false)] (d.logged (.blobExists job.bucket job.key (some false)))
  | offered {job : BulkJob} {content : Bytes} (read : readBody BulkJob r = .ok job) (faultless : jobFault? job = none)
      (up : d.checks.strikes = false) (present : d.blob? job.bucket job.key = some content) :
    Submission s r d (jobAnswer job (!d.bus.refuses s.bulkTopic))
      [.blobExists job.bucket job.key (some true), offer s job (!d.bus.refuses s.bulkTopic)]
      (offered s job (d.logged (.blobExists job.bucket job.key (some true))))

theorem postBulk_submission (s : OrderSettings) (r : Request) (d : Depot) :
    ∃ answer cs d', postBulk s r d = (answer, d') ∧ Submission s r d answer cs d' := by
  unfold postBulk
  cases read : readBody BulkJob r with
  | error message => exact ⟨_, _, _, rfl, .unread read⟩
  | ok job =>
    dsimp only
    cases fault : jobFault? job with
    | some message => exact ⟨_, _, _, rfl, .faulty read fault⟩
    | none =>
      dsimp only
      cases down : d.checks.strikes with
      | true =>
        have hexists : Depot.blobExists job.bucket job.key d =
            (.error (.ofMessage s!"s3://{job.bucket}/{job.key} is unreachable"),
              d.logged (.blobExists job.bucket job.key none)) := by
          rw [Depot.blobExists, down]
          rfl
        exact ⟨_, _, _, bind_eq hexists, .unchecked read fault down⟩
      | false =>
        have hexists : Depot.blobExists job.bucket job.key d =
            (.ok (d.blob? job.bucket job.key).isSome,
              d.logged (.blobExists job.bucket job.key (some (d.blob? job.bucket job.key).isSome))) := by
          rw [Depot.blobExists, down]
          rfl
        rw [bind_eq hexists]
        cases hblob : d.blob? job.bucket job.key with
        | none => exact ⟨_, _, _, rfl, .absent read fault down hblob⟩
        | some content => exact ⟨_, _, _, queueJob_eq s job _, .offered read fault down hblob⟩

/-! ### A file that comes with the request -/

/-- The request has a file with it: the data of the first part that is named for files, which has a name of its
own. -/
structure Encloses (s : OrderSettings) (r : Request) (bucket name : String) (content : Bytes) : Prop where
  bucket : s.uploadBucket = some bucket
  short : r.body.length ≤ s.maxUploadBytes
  part : ∃ boundary part path, r.mediaType?.bind MediaType.boundary? = some boundary ∧
    Multipart.First (Utf8.encode boundary) "file" r.body part ∧ part.fileName = some path ∧ Names path name ∧
    part.body = content
  nonempty : content ≠ []

theorem uploadedFile_ok_iff {s : OrderSettings} {boundary : List Char} {body content : Bytes} {name : String} :
    uploadedFile s boundary body = .ok (name, content) ↔
      body.length ≤ s.maxUploadBytes ∧ content ≠ [] ∧ ∃ part path,
        Multipart.First (Utf8.encode boundary) "file" body part ∧ part.fileName = some path ∧ Names path name ∧
        part.body = content := by
  unfold uploadedFile
  constructor
  · intro h
    split at h
    · cases h
    · rename_i hshort
      split at h
      · cases h
      · cases h
      · rename_i part hfind
        split at h
        · cases h
        · rename_i name' hname
          split at h
          · cases h
          · rename_i hnonempty
            cases h
            obtain ⟨path, hpath, hname⟩ := Option.bind_eq_some_iff.1 hname
            exact ⟨Nat.not_lt.1 hshort, by simpa using hnonempty, part, path, Multipart.find_eq_some_iff.1 hfind,
              hpath, uploadName?_eq_some_iff.1 hname, rfl⟩
  · rintro ⟨hshort, hnonempty, part, path, first, hpath, names, rfl⟩
    have hname : part.fileName.bind uploadName? = some name := by
      rw [hpath, Option.bind_some, uploadName?_eq_some_iff.2 names]
    rw [if_neg (Nat.not_lt.2 hshort), Multipart.find_eq_some_iff.2 first]
    dsimp only
    rw [hname]
    dsimp only
    rw [if_neg (by simpa using hnonempty)]

theorem status_of_uploadedFile_error {s : OrderSettings} {boundary : List Char} {body : Bytes} {answer : Response}
    (h : uploadedFile s boundary body = .error answer) : answer.status = 400 ∨ answer.status = 413 := by
  unfold uploadedFile at h
  repeat' split at h
  all_goals
    cases h
    try exact .inl rfl
  exact .inr rfl

/-- The key under which a file of some name would be stored now. -/
def nextKey (d : Depot) (name : String) : String := uploadKey d.supply.now (d.supply.upload (d.uploads + 1)) name

/-- The depot when a file that came with a request was stored. -/
def kept (d : Depot) (bucket name : String) (content : Bytes) : Depot :=
  { d with
    uploads := d.uploads + 1
    puts := d.puts.worn
    blobs := Depot.putBlob ⟨bucket, nextKey d name, content⟩ d.blobs }.logged
      (.blobPut bucket (nextKey d name) content true)

theorem blob?_kept (d : Depot) (bucket name : String) (content : Bytes) :
    (kept d bucket name content).blob? bucket (nextKey d name) = some content :=
  Depot.blob?_of_putBlob (d := kept d bucket name content) (b := ⟨bucket, nextKey d name, content⟩) rfl

/-- What comes of a request with a file: the answer, the calls that were made, and the depot after them. -/
inductive Upload (s : OrderSettings) (r : Request) (d : Depot) : Response → List Call → Depot → Prop
  | refused {answer : Response} (bad : answer.status ∈ [400, 413, 500]) : Upload s r d answer [] d
  | unstored {bucket name : String} {content : Bytes} (encloses : Encloses s r bucket name content)
      (down : d.puts.strikes = true) :
    Upload s r d (.error 500 "Failed to store upload") [.blobPut bucket (nextKey d name) content false]
      ({ d with uploads := d.uploads + 1, puts := d.puts.worn }.logged
        (.blobPut bucket (nextKey d name) content false))
  | offered {bucket name : String} {content : Bytes} (encloses : Encloses s r bucket name content)
      (up : d.puts.strikes = false) :
    Upload s r d (jobAnswer ⟨bucket, nextKey d name⟩ (!d.bus.refuses s.bulkTopic))
      [.blobPut bucket (nextKey d name) content true, offer s ⟨bucket, nextKey d name⟩ (!d.bus.refuses s.bulkTopic)]
      (offered s ⟨bucket, nextKey d name⟩ (kept d bucket name content))

theorem storeUpload_of_up (s : OrderSettings) (bucket name : String) (content : Bytes) {d : Depot}
    (up : d.puts.strikes = false) :
    storeUpload s bucket name content d = (jobAnswer ⟨bucket, nextKey d name⟩ (!d.bus.refuses s.bulkTopic),
      offered s ⟨bucket, nextKey d name⟩ (kept d bucket name content)) := by
  have hget : (get : Work Depot) d = (d, d) := rfl
  have hnext : Depot.nextUpload d = (d.supply.upload (d.uploads + 1), { d with uploads := d.uploads + 1 }) := rfl
  have hstore : Depot.storeBlob ⟨bucket, nextKey d name, content⟩ { d with uploads := d.uploads + 1 } =
      (.ok (), kept d bucket name content) := by
    rw [Depot.storeBlob, up]
    rfl
  unfold storeUpload
  rw [bind_eq hget, bind_eq hnext]
  exact (bind_eq hstore).trans (queueJob_eq s ⟨bucket, nextKey d name⟩ _)

theorem storeUpload_of_down (s : OrderSettings) (bucket name : String) (content : Bytes) {d : Depot}
    (down : d.puts.strikes = true) :
    storeUpload s bucket name content d = (.error 500 "Failed to store upload",
      { d with uploads := d.uploads + 1, puts := d.puts.worn }.logged
        (.blobPut bucket (nextKey d name) content false)) := by
  have hget : (get : Work Depot) d = (d, d) := rfl
  have hnext : Depot.nextUpload d = (d.supply.upload (d.uploads + 1), { d with uploads := d.uploads + 1 }) := rfl
  have hstore : Depot.storeBlob ⟨bucket, nextKey d name, content⟩ { d with uploads := d.uploads + 1 } =
      (.error (.ofMessage s!"AccessDenied: s3://{bucket}/{nextKey d name}"),
        { d with uploads := d.uploads + 1, puts := d.puts.worn }.logged
          (.blobPut bucket (nextKey d name) content false)) := by
    rw [Depot.storeBlob, down]
    rfl
  unfold storeUpload
  rw [bind_eq hget, bind_eq hnext]
  exact bind_eq hstore

/-- A request with a file has it stored. -/
theorem Encloses.postUpload_eq {s : OrderSettings} {r : Request} {bucket name : String} {content : Bytes}
    (h : Encloses s r bucket name content) : postUpload s r = storeUpload s bucket name content := by
  obtain ⟨boundary, part, path, bounded, first, hpath, names, hcontent⟩ := h.part
  have file : uploadedFile s boundary r.body = .ok (name, content) :=
    uploadedFile_ok_iff.2 ⟨h.short, h.nonempty, part, path, first, hpath, names, hcontent⟩
  unfold postUpload
  rw [bounded]
  dsimp only
  rw [h.bucket]
  dsimp only
  rw [file]

theorem postUpload_upload (s : OrderSettings) (r : Request) (d : Depot) :
    ∃ answer cs d', postUpload s r d = (answer, d') ∧ Upload s r d answer cs d' := by
  unfold postUpload
  cases bounded : r.mediaType?.bind MediaType.boundary? with
  | none => exact ⟨_, _, _, rfl, .refused (by simp [Response.error, Response.json])⟩
  | some boundary =>
    dsimp only
    cases hbucket : s.uploadBucket with
    | none => exact ⟨_, _, _, rfl, .refused (by simp [Response.error, Response.json])⟩
    | some bucket =>
      dsimp only
      cases file : uploadedFile s boundary r.body with
      | error answer =>
        refine ⟨_, _, _, rfl, .refused ?_⟩
        rcases status_of_uploadedFile_error file with h | h <;> simp [h]
      | ok named =>
        obtain ⟨name, content⟩ := named
        obtain ⟨short, nonempty, part, path, first, hpath, names, hcontent⟩ := uploadedFile_ok_iff.1 file
        have encloses : Encloses s r bucket name content :=
          ⟨hbucket, short, ⟨boundary, part, path, bounded, first, hpath, names, hcontent⟩, nonempty⟩
        cases store : d.puts.strikes with
        | true => exact ⟨_, _, _, storeUpload_of_down s bucket name content store, .unstored encloses store⟩
        | false => exact ⟨_, _, _, storeUpload_of_up s bucket name content store, .offered encloses store⟩

/-! ### What an answer tells -/

/-- How a request for a file to be taken in is answered, with the calls that were made, where only some jobs are due,
each for a file with some content. -/
structure Settled (s : OrderSettings) (Due : BulkJob → Bytes → Prop) (d : Depot) (answer : Response) (cs : List Call)
    (d' : Depot) : Prop where
  calls : d'.calls = d.calls ++ cs
  accepted_iff : answer.status = 202 ↔
    ∃ job : BulkJob, cs.filterMap Call.told? = [.carrying s.bulkTopic job.key job]
  /-- The job was published from a depot that had the file. -/
  accepted : answer.status = 202 → ∃ (job : BulkJob) (content : Bytes) (d₁ : Depot), Due job content ∧
    cs.filterMap Call.told? = [.carrying s.bulkTopic job.key job] ∧
    answer.body = Utf8.encode (printMembers
      [("bucket", printText job.bucket), ("key", printText job.key), ("status", printText "queued")]) ∧
    d₁.blob? job.bucket job.key = some content ∧ Depot.publishRecord s.bulkTopic job.key job d₁ = (.ok (), d') ∧
    d'.bus.published = d.bus.published ++ [.carrying s.bulkTopic job.key job]
  refused : answer.status ≠ 202 → cs.filterMap Call.told? = [] ∧ d'.bus.published = d.bus.published
  /-- A file is left behind only where its job could not be published. -/
  stored : answer.status ≠ 202 →
    (d'.blobs = d.blobs ∧ ∀ bucket key content, .blobPut bucket key content true ∉ cs) ∨
    answer = Router.openToAll (.error 500 "Failed to queue bulk job") ∧ ∃ (job : BulkJob) (content : Bytes),
      cs = [.blobPut job.bucket job.key content true, offer s job false]

section

variable {s : OrderSettings} {Due : BulkJob → Bytes → Prop} {r q : Request} {d d₁ d' : Depot} {answer : Response}
  {cs : List Call} {job : BulkJob}

/-- A request that breaks off before anything is stored. -/
theorem Settled.of_idle (calls : d'.calls = d.calls ++ cs) (status : answer.status ≠ 202) (bus : d'.bus = d.bus)
    (blobs : d'.blobs = d.blobs) (silent : cs.filterMap Call.told? = [])
    (storeless : ∀ bucket key content, .blobPut bucket key content true ∉ cs) :
    Settled s Due d (Router.openToAll answer) cs d' where
  calls := calls
  accepted_iff := by
    rw [silent]
    exact iff_of_false status (by simp)
  accepted := fun h => absurd h status
  refused := fun _ => ⟨silent, by rw [bus]⟩
  stored := fun _ => .inl ⟨blobs, storeless⟩

/-- A job that is due is offered to the bus when its file is there. -/
theorem Settled.of_offered {job : BulkJob} {content : Bytes} (calls : d₁.calls = d.calls ++ cs) (bus : d₁.bus = d.bus)
    (due : Due job content) (silent : cs.filterMap Call.told? = [])
    (present : d₁.blob? job.bucket job.key = some content)
    (stored : (d₁.blobs = d.blobs ∧ ∀ bucket key content, .blobPut bucket key content true ∉ cs) ∨
      cs = [.blobPut job.bucket job.key content true]) :
    Settled s Due d (Router.openToAll (jobAnswer job (!d.bus.refuses s.bulkTopic)))
      (cs ++ [offer s job (!d.bus.refuses s.bulkTopic)]) (offered s job d₁) := by
  have hcalls : (offered s job d₁).calls = d.calls ++ (cs ++ [offer s job (!d.bus.refuses s.bulkTopic)]) := by
    rw [offered, bus, ← List.append_assoc, ← calls]
    rfl
  have hrun := publishRecord_eq s job d₁
  rw [bus] at hrun
  have hpublished : (offered s job d₁).bus.published =
      d.bus.published ++ if d.bus.refuses s.bulkTopic then [] else [.carrying s.bulkTopic job.key job] := by
    have hoffers := Depot.offers_publishRecord s.bulkTopic job.key job d₁
    rw [hrun, bus] at hoffers
    exact hoffers
  have htold (taken : Bool) : (cs ++ [offer s job taken]).filterMap Call.told? =
      if taken then [.carrying s.bulkTopic job.key job] else [] := by
    rw [List.filterMap_append, silent]
    cases taken <;> rfl
  -- whether the job was published is up to the bus alone
  cases down : d.bus.refuses s.bulkTopic with
  | true =>
    rw [down] at hcalls
    rw [down, if_pos rfl, List.append_nil] at hpublished
    have status : (Router.openToAll (jobAnswer job false)).status ≠ 202 := by
      simp [jobAnswer, Router.openToAll, Response.error, Response.json, Response.withHeader]
    refine ⟨hcalls, ?_, fun h => absurd h status, fun _ => ⟨htold false, hpublished⟩, fun _ => ?_⟩
    · rw [Bool.not_true, htold false]
      exact iff_of_false status (by simp)
    · rcases stored with ⟨blobs, storeless⟩ | rfl
      · refine .inl ⟨blobs, fun bucket key content h => ?_⟩
        rcases List.mem_append.1 h with h | h
        · exact storeless bucket key content h
        · cases List.mem_singleton.1 h
      · exact .inr ⟨rfl, job, content, rfl⟩
  | false =>
    rw [down] at hcalls hrun
    rw [down, if_neg Bool.false_ne_true] at hpublished
    have status : (Router.openToAll (jobAnswer job true)).status = 202 := rfl
    refine ⟨hcalls, ?_, fun _ => ⟨job, content, d₁, due, htold true, rfl, present, hrun, hpublished⟩,
      fun h => absurd status h, fun h => absurd status h⟩
    rw [Bool.not_false, htold true]
    exact iff_of_true status ⟨job, rfl⟩

theorem Submission.settled (h : Submission s r d answer cs d') :
    Settled s (fun job _ => readBody BulkJob r = .ok job) d (Router.openToAll answer) cs d' := by
  cases h with
  | unread => exact .of_idle (List.append_nil _).symm (by simp [Response.error, Response.json]) rfl rfl rfl (by simp)
  | faulty => exact .of_idle (List.append_nil _).symm (by simp [Response.error, Response.json]) rfl rfl rfl (by simp)
  | unchecked => exact .of_idle rfl (by simp [Response.error, Response.json]) rfl rfl rfl (by simp)
  | absent => exact .of_idle rfl (by simp [Response.error, Response.json]) rfl rfl rfl (by simp)
  | @offered job content read _ _ present =>
    have calls : (d.logged (.blobExists job.bucket job.key (some true))).calls =
        d.calls ++ [.blobExists job.bucket job.key (some true)] := rfl
    exact .of_offered calls rfl read rfl present (.inl ⟨rfl, by simp⟩)

/-- The job of an upload names the file under a key of its own, which tells the time, an identifier and the name of
the file. The file holds the data of the part that was sent, up to the boundary behind it. -/
structure Uploaded (s : OrderSettings) (r : Request) (d : Depot) (job : BulkJob) (content : Bytes) : Prop where
  bucket : s.uploadBucket = some job.bucket
  key : ∃ name, Encloses s r job.bucket name content ∧
    job.key = s!"uploads/{Timestamp.stamp d.supply.now}-{(d.supply.upload (d.uploads + 1)).render}_{name}"
  oneSlash : job.key.toList.count '/' = 1
  delimited : ∃ boundary, r.mediaType?.bind MediaType.boundary? = some boundary ∧
    (∃ front left, r.body = front ++ content ++ Multipart.delimiter (Utf8.encode boundary) ++ left) ∧
    ¬ Multipart.delimiter (Utf8.encode boundary) <:+: content

theorem Encloses.uploaded {bucket name : String} {content : Bytes} (h : Encloses s r bucket name content) :
    Uploaded s r d ⟨bucket, nextKey d name⟩ content := by
  obtain ⟨boundary, part, path, bounded, first, hpath, names, hcontent⟩ := h.part
  refine ⟨h.bucket, ⟨name, h, rfl⟩, count_slash_uploadKey _ _ names, boundary, bounded, ?_⟩
  rw [← hcontent]
  exact first.delimited

theorem Upload.settled (h : Upload s r d answer cs d') :
    Settled s (Uploaded s r d) d (Router.openToAll answer) cs d' := by
  cases h with
  | refused bad =>
    refine .of_idle (List.append_nil _).symm ?_ rfl rfl rfl (by simp)
    intro h
    rw [h] at bad
    simp at bad
  | unstored => exact .of_idle rfl (by simp [Response.error, Response.json]) rfl rfl rfl (by simp)
  | @offered bucket name content encloses =>
    have calls : (kept d bucket name content).calls =
        d.calls ++ [.blobPut bucket (nextKey d name) content true] := rfl
    exact .of_offered calls rfl encloses.uploaded rfl (blob?_kept d bucket name content) (.inr rfl)

theorem route_bulk (path : r.target.path = Utf8.ofString "/orders/bulk") :
    Router.route? (routes s) r = some ⟨"/orders/bulk", [("POST", postBulk s)]⟩ := by
  have orders : (Utf8.ofString "/orders" == r.target.path) = false := by
    rw [path]
    decide
  unfold Router.route? routes
  rw [List.find?_cons, orders]
  exact List.find?_cons_of_pos (by simp [path])

theorem route_upload (path : r.target.path = Utf8.ofString "/orders/upload") :
    Router.route? (routes s) r = some ⟨"/orders/upload", [("POST", postUpload s)]⟩ := by
  have orders : (Utf8.ofString "/orders" == r.target.path) = false := by
    rw [path]
    decide
  have bulk : (Utf8.ofString "/orders/bulk" == r.target.path) = false := by
    rw [path]
    decide
  unfold Router.route? routes
  rw [List.find?_cons, orders]
  dsimp only
  rw [List.find?_cons, bulk]
  exact List.find?_cons_of_pos (by simp [path])

/-! ### Submitting a job -/

/-- The request submits the job. -/
structure Submits (q : Request) (job : BulkJob) : Prop where
  method : q.method = "POST"
  path : q.target.path = Utf8.ofString "/orders/bulk"
  read : readBody BulkJob q = .ok job

/-- The file of the job is there, and nothing that it takes to queue the job is out of order. -/
structure Ready (s : OrderSettings) (job : BulkJob) (d : Depot) : Prop where
  present : d.blob? job.bucket job.key ≠ none
  checks : d.checks.strikes = false
  bus : d.bus.refuses s.bulkTopic = false

/-- The request that submits a job as it is published. -/
def submission (job : BulkJob) : Request where
  method := "POST"
  target := ⟨Utf8.ofString "/orders/bulk", none⟩
  headers := [("content-type", Utf8.ofString "application/json")]
  body := Record.encode job

theorem submits_submission (h : (Record.encode job).length ≤ maxDocumentBytes) : Submits (submission job) job where
  method := rfl
  path := rfl
  read := readBody_encode job.lawful h

theorem Submits.accepted (h : Submits q job) (faultless : jobFault? job = none) (ready : Ready s job d) :
    (respond s q d).1.status = 202 := by
  obtain ⟨answer, cs, d', run, submission⟩ := postBulk_submission s q d
  rw [respond_post h.method (route_bulk h.path) run]
  cases submission with
  | unread read => cases h.read.symm.trans read
  | faulty read fault =>
    cases h.read.symm.trans read
    cases faultless.symm.trans fault
  | unchecked read _ down => cases ready.checks.symm.trans down
  | absent read _ _ absent =>
    cases h.read.symm.trans read
    exact absurd absent ready.present
  | offered read =>
    rw [ready.bus]
    rfl

end

/-! ### Over HTTP -/

/-- Whatever is out of order: a file is queued just when that is answered, and then the job, its key and the answer
name the same file, which is there. -/
theorem respond_settled (s : OrderSettings) (d : Depot) (query : Option Bytes) (headers : List (String × Bytes))
    (body : Bytes) :
    (∃ answer cs d',
      respond s ⟨"POST", ⟨Utf8.ofString "/orders/bulk", query⟩, headers, body⟩ d = (answer, d') ∧
      Settled s (fun job _ => readBody BulkJob
          ⟨"POST", ⟨Utf8.ofString "/orders/bulk", query⟩, headers, body⟩ = .ok job) d
        answer cs d') ∧
    ∃ answer cs d',
      respond s ⟨"POST", ⟨Utf8.ofString "/orders/upload", query⟩, headers, body⟩ d = (answer, d') ∧
      Settled s (Uploaded s ⟨"POST", ⟨Utf8.ofString "/orders/upload", query⟩, headers, body⟩ d) d answer cs d' := by
  constructor
  · obtain ⟨answer, cs, d', run, submission⟩ := postBulk_submission s
      ⟨"POST", ⟨Utf8.ofString "/orders/bulk", query⟩, headers, body⟩ d
    exact ⟨_, cs, d', respond_post rfl (route_bulk rfl) run, submission.settled⟩
  · obtain ⟨answer, cs, d', run, upload⟩ := postUpload_upload s
      ⟨"POST", ⟨Utf8.ofString "/orders/upload", query⟩, headers, body⟩ d
    exact ⟨_, cs, d', respond_post rfl (route_upload rfl) run, upload.settled⟩

/-- A depot with a file. -/
def filed : Depot := { tenPieces with blobs := [⟨"b", "rows.csv", Utf8.ofString "row"⟩] }

/-- The job of the file that is there is accepted and published. -/
theorem respond_settled_of_filed :
    ∃ answer d', respond twoAttempts (submission ⟨"b", "rows.csv"⟩) filed = (answer, d') ∧ answer.status = 202 ∧
      d'.bus.published = [.carrying twoAttempts.bulkTopic "rows.csv" (⟨"b", "rows.csv"⟩ : BulkJob)] := by
  have submits : Submits (submission ⟨"b", "rows.csv"⟩) ⟨"b", "rows.csv"⟩ := submits_submission (by decide +kernel)
  have ready : Ready twoAttempts ⟨"b", "rows.csv"⟩ filed := ⟨by decide +kernel, rfl, rfl⟩
  obtain ⟨⟨answer, cs, d', run, settled⟩, -⟩ := respond_settled twoAttempts filed none
    (submission ⟨"b", "rows.csv"⟩).headers (submission ⟨"b", "rows.csv"⟩).body
  have status : answer.status = 202 := by
    have accepted := submits.accepted (by decide +kernel) ready
    exact (congrArg (·.1.status) run).symm.trans accepted
  obtain ⟨job, content, d₁, read, -, -, -, -, published⟩ := settled.accepted status
  cases submits.read.symm.trans read
  exact ⟨answer, d', run, status, published⟩

end OrderService

end Fulfilment
