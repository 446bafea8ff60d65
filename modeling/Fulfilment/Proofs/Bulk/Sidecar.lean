import Fulfilment.Proofs.Bulk.Batch
import Fulfilment.Proofs.Bulk.Header
import Fulfilment.Proofs.Depot.Files

/-!
# Rows set aside, taken in again

The file of the rows that were set aside has these rows, byte for byte, below a header with the same columns
(`TakingFile.table_sidecar`), whatever bytes they hold. So when it is taken in itself, every row that could not be
parsed is set aside for the same reason (`ingest_sidecar`). That file may be longer than the one that it is from, and
then too long to be taken in: `sidecar_outgrows_limit`.
-/

namespace Fulfilment

open Depot (Booked)

/-- The turns of a file that was read again repeat those of the rows that could not be parsed before. -/
def RejectsAgain (c : Columns) (ts ts' : List Turn) (d' : Depot) : Prop :=
  ∀ t ∈ ts, ∀ e, c.parse t.row = .error e → ∃ i t', (ts.filter (·.rejected))[i]? = some t ∧ ts'[i]? = some t' ∧
    t'.row = t.row ∧ t.result = .error (.invalid e) ∧ t'.result = .error (.invalid e) ∧
    ⟨i + 1, e.message⟩ ∈ d'.rejections

section

variable {s s' : BulkSettings} {c : Columns} {job job' : BulkJob} {body body' : Bytes} {d d₁ d₂ d₃ d' d'' : Depot}
  {ts ts' : List Turn} {key key' : Option String} {filing filing' : List Call}

/-- The rows set aside are read back as they were, below a header with the same columns. -/
theorem TakingFile.table_sidecar (h : TakingFile s c job body d ts d₁ key filing d') :
    (Csv.table (Csv.write ((Csv.table body).1 :: rejectedRows ts))).2 = rejectedRows ts ∧
      Columns.ofHeader (Csv.table (Csv.write ((Csv.table body).1 :: rejectedRows ts))).1 = .ok c := by
  have header := h.header
  -- the reader passes over empty lines, but none of these rows is empty, for it has read them before
  have nonempty : ∀ row ∈ rejectedRows ts, row ≠ [] := by
    intro row hrow
    obtain ⟨t, ht, -, rfl⟩ := mem_rejectedRows.1 hrow
    have hmem : t.row ∈ (Csv.table body).2 := by
      rw [← h.rows]
      exact List.mem_map_of_mem ht
    exact Csv.ne_nil_of_mem_table hmem
  obtain ⟨f, g, rest, hfields⟩ := Columns.two_fields_of_ofHeader header
  rw [hfields] at header ⊢
  obtain ⟨f', hf', htable⟩ := Csv.table_write f g rest nonempty
  rw [htable]
  exact ⟨rfl, Columns.ofHeader_unmarked hf' header⟩

theorem TakingFile.blob?_sidecar {k : String} (h : TakingFile s c job body d ts d₁ (some k) filing d') :
    d'.blob? job.bucket k = some (Csv.write ((Csv.table body).1 :: rejectedRows ts)) := by
  have sidecar := h.sidecar
  generalize hblobs : d'.blobs = blobs at sidecar
  cases sidecar with
  | stored => exact Depot.blob?_of_putBlob hblobs

/-- Rows that were set aside because they could not be parsed are set aside again. -/
theorem TakingFile.rejectsAgain (h : TakingFile s c job body d ts d₁ key filing d')
    (h' : TakingFile s' c job' body' d₂ ts' d₃ key' filing' d'') (hrows : (Csv.table body').2 = rejectedRows ts) :
    RejectsAgain c ts ts' d'' := by
  intro t ht e hparse
  have result : t.result = .error (.invalid e) := ((h.turns.took t ht).fared.invalid_iff e).2 hparse
  have rejected : t ∈ ts.filter (·.rejected) := List.mem_filter.2 ⟨ht, Turn.rejected_of_error result⟩
  obtain ⟨i, hi⟩ := List.getElem?_of_mem rejected
  -- its row is the row number `i + 1` of the file of the rows set aside, and has the turn of that number
  have row : (ts'.map (·.row))[i]? = some t.row := by
    rw [h'.rows, hrows]
    unfold rejectedRows
    rw [List.getElem?_map, hi]
    rfl
  rw [List.getElem?_map, Option.map_eq_some_iff] at row
  obtain ⟨t', hi', hrow⟩ := row
  have ht' : t' ∈ ts' := List.mem_of_getElem? hi'
  have result' : t'.result = .error (.invalid e) :=
    ((h'.turns.took t' ht').fared.invalid_iff e).2 (by rw [hrow, hparse])
  have number : t'.number = i + 1 := by
    rw [h'.turns.number_eq hi', Nat.add_comm]
  refine ⟨i, t', hi, hi', hrow, result, result', ?_⟩
  rw [h'.noted, h'.turns.rejections]
  refine List.mem_append_right _ (List.mem_filterMap.2 ⟨t', ht', ?_⟩)
  unfold Turn.rejection?
  rw [result', number]
  rfl

/-- The file of the rows that were set aside when a file was taken in: what it holds, and what becomes of it when it
is taken in itself. -/
structure Reread (s : BulkSettings) (job : BulkJob) (d : Depot) (report : BulkReport) (k : String) (body : Bytes)
    (c : Columns) (ts : List Turn) (sidecar : Bytes) (d' : Depot) : Prop where
  taken : ∃ d₁ filing, TakingFile s c job body d ts d₁ (some k) filing d'
  report : report = reportOf ts (some k)
  stored : d'.blob? job.bucket k = some sidecar
  rows : (Csv.table sidecar).2 = rejectedRows ts
  columns : Columns.ofHeader (Csv.table sidecar).1 = .ok c
  /-- Whatever the settings and the depot are when it is taken in, unless it is too long for them. -/
  again : ∀ (s' : BulkSettings) (d₀ : Depot), d₀.blob? job.bucket k = some sidecar → sidecar.length ≤ s'.maxBytes →
    ∃ ts' d₁ key' filing d'', ingest s' ⟨job.bucket, k⟩ d₀ = (.ok (reportOf ts' key'), d'') ∧
      TakingFile s' c ⟨job.bucket, k⟩ sidecar d₀ ts' d₁ key' filing d'' ∧ RejectsAgain c ts ts' d''

theorem ingest_sidecar {report : BulkReport} {k : String} (h : ingest s job d = (.ok report, d'))
    (hkey : report.errorKey = some k) : ∃ body c ts sidecar, Reread s job d report k body c ts sidecar d' := by
  obtain ⟨res, ts, d₀, hi, hing⟩ := ingest_spec s job d
  rw [h] at hi
  cases hi
  cases hing with
  | @taken c body _ d₁ _ key filing taking =>
    have hk : key = some k := hkey
    rw [hk] at taking
    obtain ⟨rows, columns⟩ := taking.table_sidecar
    refine ⟨body, c, ts, _, ⟨d₁, filing, taking⟩, by rw [hk], taking.blob?_sidecar, rows, columns, ?_⟩
    intro s' d₀ hblob hshort
    have fetched := Depot.fetch_eq_ok_iff.2 ⟨hblob, hshort⟩
    obtain ⟨ts', d₂, key', filing', d'', hi', taking'⟩ := ingest_takes ⟨job.bucket, k⟩ fetched columns
    exact ⟨ts', d₂, key', filing', d'', hi', taking', taking.rejectsAgain taking' rows⟩

end

/-! ### A file at the limit -/

/-- A file of one row, whose quantity is no number, without a line break at its end. -/
def brokenFile : Bytes := Utf8.ofString "tenant_id,seller_id,hub_id,sku_id,quantity\nt1,s1,h1,k1,x"

def newYearsEve : Instant := ⟨⟨2024, 12, 31, by decide⟩, 0, 0, .refl true⟩

def depotOfBroken (body : Bytes) : Depot :=
  { Depot.opened ⟨newYearsEve, fun _ => (⟨List.replicate 32 (0#4).toFin, by decide⟩, newYearsEve),
      fun _ => ⟨List.replicate 32 (0#4).toFin, by decide⟩⟩ with blobs := [⟨"b", "orders.csv", body⟩] }

/-- Settings with a limit. -/
def upTo (limit : Nat) : BulkSettings := ⟨Topic.orderCreated, false, limit⟩

/-- The file of the row set aside ends with a line break, and so is longer than the limit that its source has just
kept to. It is not taken in, and its row is not set aside again. -/
theorem sidecar_outgrows_limit :
    let d := (ingest (upTo brokenFile.length) ⟨"b", "orders.csv"⟩ (depotOfBroken brokenFile)).2
    let again := ingest (upTo brokenFile.length) ⟨"b", "errors/orders.csv-1735603200.csv"⟩ d
    (ingest (upTo brokenFile.length) ⟨"b", "orders.csv"⟩ (depotOfBroken brokenFile)).1.toOption =
        some ⟨1, 0, 1, some "errors/orders.csv-1735603200.csv"⟩ ∧
      d.rejections.map (·.row) = [1] ∧ again.1.isOk = false ∧ again.2.rejections = d.rejections :=
  ⟨by decide +kernel, by decide +kernel, by decide +kernel, by decide +kernel⟩

/-- A file that begins with a byte order mark. One field of its row holds a comma, a quote and line breaks, another is
not in UTF-8, and the last is missing. -/
def markedFile : Bytes :=
  [0xEF, 0xBB, 0xBF] ++ Utf8.ofString "tenant_id,seller_id,hub_id,sku_id,quantity\n\"t,\"\"1\r\n\",," ++ [0xFF, 10]

def takingMarked : Except Failure BulkReport × Depot :=
  ingest (upTo 1000) ⟨"b", "orders.csv"⟩ (depotOfBroken markedFile)

theorem ingest_sidecar_of_marked :
    takingMarked = (.ok ⟨1, 0, 1, some "errors/orders.csv-1735603200.csv"⟩, takingMarked.2) ∧
      ∃ body c ts sidecar, Reread (upTo 1000) ⟨"b", "orders.csv"⟩ (depotOfBroken markedFile)
        ⟨1, 0, 1, some "errors/orders.csv-1735603200.csv"⟩ "errors/orders.csv-1735603200.csv" body c ts sidecar
        takingMarked.2 := by
  have report : takingMarked.1 = .ok ⟨1, 0, 1, some "errors/orders.csv-1735603200.csv"⟩ :=
    Program.eq_ok_of_toOption (by decide +kernel)
  have h : takingMarked = (.ok ⟨1, 0, 1, some "errors/orders.csv-1735603200.csv"⟩, takingMarked.2) :=
    Prod.ext report rfl
  exact ⟨h, ingest_sidecar h rfl⟩

end Fulfilment
