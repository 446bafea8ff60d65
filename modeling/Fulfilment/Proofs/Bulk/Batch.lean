import Fulfilment.Proofs.Bulk.Rows

/-!
# How a file fares

The rows of a file have their turns one after the other, and each turn starts from the depot that the one before it
has left (`Turns`). A turn that fails is noted, and the rows whose turns failed are stored as a file of their own. All
that taking in a file can come to is `Ingesting` (`ingest_spec`): it fails before the first turn, or it does not fail
at all (`TakingFile`), and the latter whenever the file is at hand and has the columns (`ingest_takes`).
-/

namespace Fulfilment

open Depot (Booked)
open Program (bind_eq Along)

/-- What happened to a row: the depot that it found, what became of it, the calls that were made, and the depot after
them. -/
structure Turn where
  /-- The number of the row, from one. -/
  number : Nat
  row : Row
  before : Depot
  result : Except RowError Unit
  calls : List Call
  after : Depot

namespace Turn

def rejected (t : Turn) : Bool := !t.result.isOk

/-- What is noted of a turn: why its row was set aside, if it was. -/
def rejection? (t : Turn) : Option Rejection :=
  match t.result with
  | .ok _ => none
  | .error e => some ⟨t.number, e.message⟩

/-- The depot that the next row finds. -/
def noted (t : Turn) : Depot := { t.after with rejections := t.after.rejections ++ t.rejection?.toList }

/-- The turn is that of its row. -/
structure Took (s : BulkSettings) (c : Columns) (t : Turn) : Prop where
  run : ingestRow s c t.row t.before = (t.result, t.after)
  fared : TakingRow s c t.row t.before t.result t.calls
  booked : Booked t.before t.calls t.after

end Turn

/-- Turns of rows, the first of which has the number `n` and finds the depot `d`. -/
inductive Turns (s : BulkSettings) (c : Columns) : Nat → Depot → List Turn → Depot → Prop
  | none (n : Nat) (d : Depot) : Turns s c n d [] d
  | more {t : Turn} {ts : List Turn} {d' : Depot} (took : t.Took s c)
      (later : Turns s c (t.number + 1) t.noted ts d') : Turns s c t.number t.before (t :: ts) d'

/-- The rows that were set aside. -/
def rejectedRows (ts : List Turn) : List Row := (ts.filter (·.rejected)).map (·.row)

theorem mem_rejectedRows {ts : List Turn} {row : Row} :
    row ∈ rejectedRows ts ↔ ∃ t ∈ ts, t.rejected = true ∧ t.row = row := by
  unfold rejectedRows
  simp only [List.mem_map, List.mem_filter, and_assoc]

theorem Turn.rejected_of_error {t : Turn} {e : RowError} (h : t.result = .error e) : t.rejected = true := by
  unfold rejected
  rw [h]
  rfl

theorem Turn.noted_of_ok {t : Turn} {u : Unit} (h : t.result = .ok u) : t.noted = t.after := by
  have hnone : t.rejection?.toList = [] := by simp [rejection?, h]
  unfold noted
  rw [hnone, List.append_nil]

theorem Turn.noted_of_error {t : Turn} {e : RowError} (h : t.result = .error e) :
    Depot.reject t.number e.message t.after = ((), t.noted) := by
  have hsome : t.rejection?.toList = [⟨t.number, e.message⟩] := by simp [rejection?, h]
  unfold noted
  rw [hsome]
  rfl

theorem ingestRows_spec (s : BulkSettings) (c : Columns) (n : Nat) (rows : List Row) (d : Depot) :
    ∃ ts d', ingestRows s c n rows d = (rejectedRows ts, d') ∧ Turns s c n d ts d' ∧ ts.map (·.row) = rows := by
  induction rows generalizing n d with
  | nil => exact ⟨[], d, rfl, .none n d, rfl⟩
  | cons row rest ih =>
    obtain ⟨res, d₁, cs, hr, hf, hb⟩ := ingestRow_spec s c row d
    -- the rows behind this one start from the depot in which it is already noted
    let t : Turn := ⟨n, row, d, res, cs, d₁⟩
    have took : t.Took s c := ⟨hr, hf, hb⟩
    obtain ⟨ts, d', hrest, hts, hrows⟩ := ih (n + 1) t.noted
    refine ⟨t :: ts, d', ?_, .more took hts, by rw [List.map_cons, hrows]⟩
    unfold ingestRows
    rw [bind_eq hr]
    cases res with
    | ok u =>
      rw [t.noted_of_ok rfl] at hrest
      exact hrest
    | error e =>
      dsimp only
      rw [bind_eq (t.noted_of_error rfl), bind_eq hrest]
      rfl

namespace Turns

variable {s : BulkSettings} {c : Columns} {n : Nat} {d d' : Depot} {ts : List Turn}

theorem took (h : Turns s c n d ts d') : ∀ t ∈ ts, t.Took s c := by
  induction h with
  | none =>
    intro t ht
    cases ht
  | more took _ ih =>
    rw [List.forall_mem_cons]
    exact ⟨took, ih⟩

/-- The calls of the turns are all the calls that were made. -/
theorem booked (h : Turns s c n d ts d') : Booked d (ts.flatMap (·.calls)) d' := by
  induction h with
  | none n d => exact .refl d
  | @more t ts d' took _ ih =>
    have hnoted : Booked t.before t.calls t.noted := ⟨took.booked.calls, took.booked.supply, took.booked.ledger⟩
    exact hnoted.trans ih

/-- Rows are numbered one after the other. -/
theorem numbers (h : Turns s c n d ts d') : ts.map (·.number) = List.range' n ts.length := by
  induction h with
  | none => rfl
  | more _ _ ih => rw [List.map_cons, List.length_cons, List.range'_succ, ih]

theorem number_eq (h : Turns s c n d ts d') {i : Nat} {t : Turn} (hi : ts[i]? = some t) : t.number = n + i := by
  have hlt : i < ts.length := (List.getElem?_eq_some_iff.1 hi).1
  have hnumber : (ts.map (·.number))[i]? = some t.number := by rw [List.getElem?_map, hi]; rfl
  rw [h.numbers, List.getElem?_range' hlt, Nat.one_mul] at hnumber
  exact (Option.some.inj hnumber).symm

end Turns

/-! ### What is noted -/

/-- The program notes nothing. -/
def Unnoted {α : Type} (p : Work α) : Prop := Along (fun d d' => d'.rejections = d.rejections) p

namespace Unnoted

theorem pure {α : Type} (a : α) : Unnoted (pure a : Work α) :=
  Along.pure (R := fun d d' : Depot => d'.rejections = d.rejections) (fun _ => rfl) a

theorem bind {α β : Type} {p : Work α} {f : α → Work β} (hp : Unnoted p) (hf : ∀ a, Unnoted (f a)) :
    Unnoted (p >>= f) :=
  Along.bind (fun h h' => h'.trans h) hp hf

theorem lookup (hubId skuId : String) : Unnoted (Depot.lookup hubId skuId) := by
  intro d
  unfold Depot.lookup
  cases d.lookups.strikes <;> rfl

theorem insert (draft : Draft) : Unnoted (Depot.insert draft) := by
  intro d
  unfold Depot.insert
  cases d.inserts.strikes <;> rfl

theorem announce (topic : String) (o : Order) : Unnoted (announce topic o) := fun _ => rfl

end Unnoted

theorem verifyRow_unnoted (s : BulkSettings) (r : OrderRequest) : Unnoted (verifyRow s r) := by
  have snapshot : Unnoted (Depot.inventory.snapshot r.hubId r.skuId) := by
    refine (Unnoted.lookup r.hubId r.skuId).bind fun found => ?_
    cases found <;> exact .pure _
  unfold verifyRow
  split
  · refine snapshot.bind fun found => ?_
    cases found <;> exact .pure _
  · exact .pure _

theorem storeRow_unnoted (s : BulkSettings) (r : OrderRequest) : Unnoted (storeRow s r) := by
  refine (Unnoted.insert r.draft).bind fun stored => ?_
  cases stored with
  | error f => exact .pure _
  | ok o =>
    refine (Unnoted.announce s.createdTopic o).bind fun told => ?_
    cases told <;> exact .pure _

/-- Taking in a row notes nothing by itself. -/
theorem ingestRow_unnoted (s : BulkSettings) (c : Columns) (row : Row) : Unnoted (ingestRow s c row) := by
  unfold ingestRow
  split
  · exact .pure _
  · rename_i r _
    refine (verifyRow_unnoted s r).bind fun v => ?_
    cases v with
    | error e => exact .pure _
    | ok u => exact storeRow_unnoted s r

theorem Turns.rejections {s : BulkSettings} {c : Columns} {n : Nat} {d d' : Depot} {ts : List Turn}
    (h : Turns s c n d ts d') : d'.rejections = d.rejections ++ ts.filterMap (·.rejection?) := by
  induction h with
  | none n d => exact (List.append_nil _).symm
  | @more t ts d' took _ ih =>
    have hafter : t.after.rejections = t.before.rejections := by
      have hrow := ingestRow_unnoted s c t.row t.before
      rwa [took.run] at hrow
    have hcons : (t :: ts).filterMap (·.rejection?) = t.rejection?.toList ++ ts.filterMap (·.rejection?) := by
      cases hr : t.rejection? <;> simp [hr]
    rw [ih, hcons, ← List.append_assoc, ← hafter]
    rfl

/-! ### The rows set aside -/

/-- The file of the rows that were set aside. -/
def BulkJob.sidecar (job : BulkJob) (now : Instant) (header : Row) (rows : List Row) : Blob :=
  ⟨job.bucket, sidecarKey job.key now.unixSeconds, Csv.write (header :: rows)⟩

/-- What storing the rows set aside tells, the calls it makes, and the files after them. -/
inductive WritingSidecar (sidecar : Blob) (rows : List Row) (blobs : List Blob) :
    Option String → List Call → List Blob → Prop
  | needless (empty : rows = []) : WritingSidecar sidecar rows blobs none [] blobs
  | refused (nonempty : rows ≠ []) :
    WritingSidecar sidecar rows blobs none [.blobPut sidecar.bucket sidecar.key sidecar.body false] blobs
  | stored (nonempty : rows ≠ []) :
    WritingSidecar sidecar rows blobs (some sidecar.key) [.blobPut sidecar.bucket sidecar.key sidecar.body true]
      (Depot.putBlob sidecar blobs)

theorem writeSidecar_spec (job : BulkJob) (header : Row) (rows : List Row) (d : Depot) :
    ∃ key d' cs, writeSidecar job header rows d = (key, d') ∧
      WritingSidecar (job.sidecar d.supply.now header rows) rows d.blobs key cs d'.blobs ∧ Booked d cs d' ∧
      d'.rejections = d.rejections := by
  unfold writeSidecar
  cases rows with
  | nil => exact ⟨_, d, [], rfl, .needless rfl, .refl d, rfl⟩
  | cons row rest =>
    have nonempty : row :: rest ≠ [] := by simp
    rw [if_neg (by simp), bind_eq (show (get : Work Depot) d = (d, d) from rfl)]
    rcases Depot.storeBlob_spec (job.sidecar d.supply.now header (row :: rest)) d with
      ⟨f, d', hs, hb, hblobs, hnoted⟩ | ⟨d', hs, hb, hblobs, hnoted⟩
    · refine ⟨_, d', _, bind_eq hs, ?_, hb, hnoted⟩
      rw [hblobs]
      exact .refused nonempty
    · refine ⟨_, d', _, bind_eq hs, ?_, hb, hnoted⟩
      rw [hblobs]
      exact .stored nonempty

/-! ### The whole file -/

/-- The report on the turns of a file, when the rows set aside are stored under a key or not at all. -/
def reportOf (ts : List Turn) (errorKey : Option String) : BulkReport :=
  ⟨ts.length, ts.length - (rejectedRows ts).length, (rejectedRows ts).length, errorKey⟩

/-- A file with the columns is taken in: its rows have their turns, after which the depot is `d₁`, and then those set
aside are stored by the calls `filing`. -/
structure TakingFile (s : BulkSettings) (c : Columns) (job : BulkJob) (body : Bytes) (d : Depot) (ts : List Turn)
    (d₁ : Depot) (errorKey : Option String) (filing : List Call) (d' : Depot) : Prop where
  fetched : d.fetch job.bucket job.key s.maxBytes = .ok body
  header : Columns.ofHeader (Csv.table body).1 = .ok c
  turns : Turns s c 1 (d.logged (.blobGet job.bucket job.key s.maxBytes true)) ts d₁
  rows : ts.map (·.row) = (Csv.table body).2
  sidecar : WritingSidecar (job.sidecar d.supply.now (Csv.table body).1 (rejectedRows ts)) (rejectedRows ts) d₁.blobs
    errorKey filing d'.blobs
  booked : Booked d₁ filing d'
  noted : d'.rejections = d₁.rejections

/-- What taking in a file tells, the turns of its rows, and the depot after them. -/
inductive Ingesting (s : BulkSettings) (job : BulkJob) (d : Depot) :
    Except Failure BulkReport → List Turn → Depot → Prop
  | notFetched {f : Failure} (fetched : d.fetch job.bucket job.key s.maxBytes = .error f) :
    Ingesting s job d (.error (f.context s!"cannot fetch {job.bucket}/{job.key}")) []
      (d.logged (.blobGet job.bucket job.key s.maxBytes false))
  | refused {body : Bytes} {f : Failure} (fetched : d.fetch job.bucket job.key s.maxBytes = .ok body)
      (header : Columns.ofHeader (Csv.table body).1 = .error f) :
    Ingesting s job d (.error (f.context ("rejecting " ++ job.key))) []
      (d.logged (.blobGet job.bucket job.key s.maxBytes true))
  | taken {c : Columns} {body : Bytes} {ts : List Turn} {d₁ d' : Depot}
      {errorKey : Option String} {filing : List Call}
      (taking : TakingFile s c job body d ts d₁ errorKey filing d') :
    Ingesting s job d (.ok (reportOf ts errorKey)) ts d'

theorem ingest_spec (s : BulkSettings) (job : BulkJob) (d : Depot) :
    ∃ r ts d', ingest s job d = (r, d') ∧ Ingesting s job d r ts d' := by
  unfold ingest
  cases hfetch : d.fetch job.bucket job.key s.maxBytes with
  | error f =>
    have hget : Depot.getBlob job.bucket job.key s.maxBytes d =
        (.error f, d.logged (.blobGet job.bucket job.key s.maxBytes false)) := by
      unfold Depot.getBlob
      rw [hfetch]
      rfl
    exact ⟨_, [], _, bind_eq hget, .notFetched hfetch⟩
  | ok body =>
    have hget : Depot.getBlob job.bucket job.key s.maxBytes d =
        (.ok body, d.logged (.blobGet job.bucket job.key s.maxBytes true)) := by
      unfold Depot.getBlob
      rw [hfetch]
      rfl
    rw [bind_eq hget]
    dsimp only
    unfold ingestTable
    cases hheader : Columns.ofHeader (Csv.table body).1 with
    | error f => exact ⟨_, [], _, rfl, .refused hfetch hheader⟩
    | ok c =>
      obtain ⟨ts, d₁, hrows, hts, hmap⟩ :=
        ingestRows_spec s c 1 (Csv.table body).2 (d.logged (.blobGet job.bucket job.key s.maxBytes true))
      obtain ⟨key, d', cs, hw, hsidecar, hb, hnoted⟩ := writeSidecar_spec job (Csv.table body).1 (rejectedRows ts) d₁
      have hsupply : d₁.supply = d.supply := hts.booked.supply
      have hlength : (Csv.table body).2.length = ts.length := by rw [← hmap, List.length_map]
      dsimp only
      rw [bind_eq hrows, bind_eq hw, hlength]
      rw [hsupply] at hsidecar
      exact ⟨_, ts, d', rfl, .taken ⟨hfetch, hheader, hts, hmap, hsidecar, hb, hnoted⟩⟩

/-- A file that is at hand and has the columns is taken in. -/
theorem ingest_takes {s : BulkSettings} {c : Columns} {body : Bytes} {d : Depot} (job : BulkJob)
    (fetched : d.fetch job.bucket job.key s.maxBytes = .ok body)
    (header : Columns.ofHeader (Csv.table body).1 = .ok c) :
    ∃ ts d₁ errorKey filing d', ingest s job d = (.ok (reportOf ts errorKey), d') ∧
      TakingFile s c job body d ts d₁ errorKey filing d' := by
  obtain ⟨res, ts, d', hi, h⟩ := ingest_spec s job d
  cases h with
  | notFetched fetched' =>
    rw [fetched] at fetched'
    cases fetched'
  | refused fetched' header' =>
    rw [fetched] at fetched'
    cases fetched'
    rw [header] at header'
    cases header'
  | @taken _ _ _ d₁ _ errorKey filing taking =>
    have hbody := taking.fetched
    rw [fetched] at hbody
    cases hbody
    have hcolumns := taking.header
    rw [header] at hcolumns
    cases hcolumns
    exact ⟨ts, d₁, errorKey, filing, d', hi, taking⟩

end Fulfilment
