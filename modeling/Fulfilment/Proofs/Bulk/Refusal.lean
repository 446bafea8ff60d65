import Fulfilment.Proofs.Bulk.Batch
import Fulfilment.Proofs.Bulk.Header
import Fulfilment.Proofs.Bus.Retry
import Fulfilment.Proofs.Depot.Files

/-!
# When a file is refused

Taking in a file fails just when there is no file that is small enough, or its header will not do
(`ingest_error_iff`), so no row can make it fail. It then fails before the first row has its turn, with nothing stored
and nothing told (`Ingesting.refused_clean`). A job may therefore be attempted again and again, and each row still has
at most one turn (`ingest_refuses_before_rows`).
-/

namespace Fulfilment

open Program (bind_eq)

/-- The file of a job cannot be taken in: there is none, or it is too long, or its header lacks a column. -/
def BulkJob.Unfit (job : BulkJob) (limit : Nat) (d : Depot) : Prop :=
  d.blob? job.bucket job.key = none ∨
    ∃ body, d.blob? job.bucket job.key = some body ∧
      (limit < body.length ∨
        ∃ name ∈ Columns.required, ∀ field ∈ (Csv.table body).1, Columns.nameOf field ≠ name)

section

variable {s : BulkSettings} {job : BulkJob} {d d' : Depot} {ts : List Turn} {f : Failure}

/-- Nothing but the call that asked for the file is left of a file that was refused. -/
theorem Ingesting.refused_clean (h : Ingesting s job d (.error f) ts d') :
    ts = [] ∧ ∃ fetched, d' = d.logged (.blobGet job.bucket job.key s.maxBytes fetched) := by
  cases h with
  | notFetched => exact ⟨rfl, false, rfl⟩
  | refused => exact ⟨rfl, true, rfl⟩

theorem Ingesting.error_iff {res : Except Failure BulkReport} (h : Ingesting s job d res ts d') :
    (∃ f, res = .error f) ↔ job.Unfit s.maxBytes d := by
  unfold BulkJob.Unfit
  cases h with
  | notFetched fetched =>
    have hfetch := Depot.fetch_error_iff.1 ⟨_, fetched⟩
    refine ⟨fun _ => ?_, fun _ => ⟨_, rfl⟩⟩
    rcases hfetch with hnone | ⟨body, hbody, hlong⟩
    · exact .inl hnone
    · exact .inr ⟨body, hbody, .inl hlong⟩
  | @refused body _ fetched header =>
    have hlack := Columns.ofHeader_error_iff.1 ⟨_, header⟩
    refine ⟨fun _ => ?_, fun _ => ⟨_, rfl⟩⟩
    exact .inr ⟨body, (Depot.fetch_eq_ok_iff.1 fetched).1, .inr hlack⟩
  | @taken c body _ _ _ _ _ taking =>
    obtain ⟨hbody, hshort⟩ := Depot.fetch_eq_ok_iff.1 taking.fetched
    constructor
    · rintro ⟨f, hf⟩
      cases hf
    · rintro (hnone | ⟨body', hbody', hunfit⟩)
      · rw [hbody] at hnone
        cases hnone
      · rw [hbody] at hbody'
        cases hbody'
        rcases hunfit with hlong | hlack
        · omega
        · obtain ⟨f, hf⟩ := Columns.ofHeader_error_iff.2 hlack
          rw [taking.header] at hf
          cases hf

theorem ingest_error_iff : (∃ f, (ingest s job d).1 = .error f) ↔ job.Unfit s.maxBytes d := by
  obtain ⟨res, ts, d', hi, h⟩ := ingest_spec s job d
  rw [hi]
  exact h.error_iff

end

/-! ### Jobs -/

/-- What an attempt at a message tells, the turns of the rows that it took in, and the depot after it. -/
inductive Working (s : BulkSettings) (m : Message) (d : Depot) : Except Failure Unit → List Turn → Depot → Prop
  | unreadable {fault : Json.Fault}
      (read : (Json.Record.parse m.payload : Except Json.Fault BulkJob) = .error fault) :
    Working s m d (.error ((Failure.ofMessage fault.message).context "undecodable bulk ingestion job")) [] d
  | ingested {job : BulkJob} {r : Except Failure BulkReport} {ts : List Turn} {d' : Depot}
      (read : Json.Record.parse m.payload = .ok job) (ingesting : Ingesting s job d r ts d') :
    Working s m d (r.map fun _ => ()) ts d'

section

variable {s : BulkSettings} {m : Message} {d d' : Depot} {ts : List Turn}

theorem bulkWorker_spec (s : BulkSettings) (m : Message) (d : Depot) :
    ∃ r ts d', bulkWorker s m d = (r, d') ∧ Working s m d r ts d' := by
  unfold bulkWorker
  cases hp : (Json.Record.parse m.payload : Except Json.Fault BulkJob) with
  | error fault => exact ⟨_, [], d, rfl, .unreadable hp⟩
  | ok job =>
    obtain ⟨r, ts, d', hi, h⟩ := ingest_spec s job d
    refine ⟨_, ts, d', ?_, .ingested hp h⟩
    dsimp only
    rw [bind_eq hi]
    cases r <;> rfl

/-- An attempt that fails takes in no row and leaves the files alone. -/
theorem Working.failed {f : Failure} (h : Working s m d (.error f) ts d') : ts = [] ∧ d'.blobs = d.blobs := by
  -- what an attempt at a job tells is a map of what the file told, so an error comes from an error there
  generalize hr : (Except.error f : Except Failure Unit) = r at h
  cases h with
  | unreadable => exact ⟨rfl, rfl⟩
  | @ingested job r _ _ _ ingesting =>
    cases r with
    | ok report => cases hr
    | error f' =>
      obtain ⟨hts, fetched, rfl⟩ := ingesting.refused_clean
      exact ⟨hts, rfl⟩

/-- Turns of rows that are no rows, or all rows of the file of a job, each of them once. -/
structure TakenOnce (m : Message) (d : Depot) (ts : List Turn) : Prop where
  numbers : ts.map (·.number) = List.range' 1 ts.length
  rows : ts = [] ∨ ∃ (job : BulkJob) (body : Bytes), Json.Record.parse m.payload = .ok job ∧
    d.blob? job.bucket job.key = some body ∧ ts.map (·.row) = (Csv.table body).2

theorem TakenOnce.none (m : Message) (d : Depot) : TakenOnce m d [] := ⟨rfl, .inl rfl⟩

theorem Working.takenOnce {r : Except Failure Unit} (h : Working s m d r ts d') : TakenOnce m d ts := by
  cases h with
  | unreadable => exact .none m d
  | @ingested job _ _ _ read ingesting =>
    cases ingesting with
    | notFetched => exact .none m d
    | refused => exact .none m d
    | @taken _ body _ _ _ _ _ taking =>
      have hbody := (Depot.fetch_eq_ok_iff.1 taking.fetched).1
      exact ⟨taking.turns.numbers, .inr ⟨job, body, read, hbody, taking.rows⟩⟩

/-- What was attempted at a message: the attempts, and the turns of the rows that each of them took in. -/
structure Tried (s : BulkSettings) (m : Message) (d : Depot) (xs : List (Handler.Attempt Depot × List Turn))
    (d' : Depot) : Prop where
  attempted : Handler.Attempted (bulkWorker s) m d (xs.map (·.1)) d'
  working : ∀ x ∈ xs, Working s m x.1.before x.1.result x.2 x.1.after
  /-- No row has a second turn, not even in another attempt. -/
  once : TakenOnce m d (xs.flatMap (·.2))

theorem TakenOnce.of_blobs_eq {d₁ : Depot} (h : TakenOnce m d₁ ts) (hb : d₁.blobs = d.blobs) : TakenOnce m d ts := by
  refine ⟨h.numbers, ?_⟩
  rcases h.rows with hnil | ⟨job, body, read, hbody, rows⟩
  · exact .inl hnil
  · unfold Depot.blob? at hbody
    rw [hb] at hbody
    exact .inr ⟨job, body, read, hbody, rows⟩

theorem tried_of_attempted {as : List (Handler.Attempt Depot)} (h : Handler.Attempted (bulkWorker s) m d as d') :
    ∃ xs, xs.map (·.1) = as ∧ Tried s m d xs d' := by
  induction h with
  | @last d d' r run =>
    obtain ⟨r', ts, d₁, hr, hw⟩ := bulkWorker_spec s m d
    rw [run] at hr
    cases hr
    refine ⟨[(⟨d, r, d'⟩, ts)], rfl, .last run, by simpa using hw, ?_⟩
    rw [List.flatMap_singleton]
    exact hw.takenOnce
  | @again d d₁ d' f as failed later ih =>
    obtain ⟨r', ts, d₂, hr, hw⟩ := bulkWorker_spec s m d
    rw [failed] at hr
    cases hr
    -- an attempt that fails is over before the first row
    obtain ⟨rfl, hblobs⟩ := hw.failed
    obtain ⟨xs, hxs, tried⟩ := ih
    refine ⟨(⟨d, .error f, d₁⟩, []) :: xs, by rw [List.map_cons, hxs], ?_, ?_, ?_⟩
    · rw [List.map_cons]
      exact .again failed tried.attempted
    · rw [List.forall_mem_cons]
      exact ⟨hw, tried.working⟩
    · rw [List.flatMap_cons, List.nil_append]
      exact tried.once.of_blobs_eq hblobs

/-- Taking in a file fails just when the file is unfit, and then before anything else was done, so that further
attempts take in no row for the second time. -/
theorem ingest_refuses_before_rows (s : BulkSettings) (d : Depot) :
    (∀ job, ((∃ f, (ingest s job d).1 = .error f) ↔ job.Unfit s.maxBytes d) ∧
      ((∃ report, (ingest s job d).1 = .ok report) ∨
        ∃ fetched, (ingest s job d).2 =
          { d with calls := d.calls ++ [.blobGet job.bucket job.key s.maxBytes fetched] })) ∧
    ∀ n m, ∃ xs, xs.length ≤ max 1 n ∧ Tried s m d xs (Handler.retried n (bulkWorker s) m d).2 := by
  constructor
  · intro job
    refine ⟨ingest_error_iff, ?_⟩
    obtain ⟨res, ts, d', hi, h⟩ := ingest_spec s job d
    rw [hi]
    cases res with
    | ok report => exact .inl ⟨report, rfl⟩
    | error f =>
      obtain ⟨-, fetched, hclean⟩ := h.refused_clean
      exact .inr ⟨fetched, hclean⟩
  · intro n m
    obtain ⟨as, has, hn⟩ := Handler.retried_attempted n (bulkWorker s) m d
    obtain ⟨xs, rfl, tried⟩ := tried_of_attempted has
    exact ⟨xs, by rwa [List.length_map] at hn, tried⟩

end

end Fulfilment
