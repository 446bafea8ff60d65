import Fulfilment.Proofs.Bulk.Layout
import Fulfilment.Proofs.Bulk.Sidecar
import Fulfilment.Proofs.Depot.Alike

/-!
# A file in another layout

Taking in a file comes to the same in every layout of it, unless it is too long in one: the same orders are stored and
announced, in the same order, and the same rows are set aside for the same reasons (`ingest_relaid`). For rows that
make the same are handled alike (`ingestRows_abreast`), and that is so whatever other files there are. A wider layout
may be too long, however: `relaid_outgrows_limit`.
-/

namespace Fulfilment

open Depot (Alike)
open Program (bind_eq)

section

variable {s : BulkSettings} {c c' : Columns} {row row' : Row} {rows rows' : List Row}

/-! ### Rows that make the same -/

theorem verifyRow_abreast (s : BulkSettings) (r : OrderRequest) : Abreast Eq (verifyRow s r) (verifyRow s r) := by
  have snapshot : Abreast Eq (Depot.inventory.snapshot r.hubId r.skuId)
      (Depot.inventory.snapshot r.hubId r.skuId) := by
    refine (Abreast.lookup r.hubId r.skuId).bind ?_
    rintro found _ rfl
    cases found <;> exact .pure rfl
  unfold verifyRow
  split
  · refine snapshot.bind ?_
    rintro found _ rfl
    cases found <;> exact .pure rfl
  · exact .pure rfl

theorem storeRow_abreast (s : BulkSettings) (r : OrderRequest) : Abreast Eq (storeRow s r) (storeRow s r) := by
  refine (Abreast.insert r.draft).bind ?_
  rintro stored _ rfl
  cases stored with
  | error f => exact .pure rfl
  | ok o =>
    refine (Abreast.publish s.createdTopic o.id.render _).bind ?_
    rintro told _ rfl
    cases told <;> exact .pure rfl

theorem ingestRow_abreast (s : BulkSettings) (h : c'.parse row' = c.parse row) :
    Abreast Eq (ingestRow s c row) (ingestRow s c' row') := by
  unfold ingestRow
  rw [h]
  cases c.parse row with
  | error e => exact .pure rfl
  | ok r =>
    refine (verifyRow_abreast s r).bind ?_
    rintro verified _ rfl
    cases verified with
    | error e => exact .pure rfl
    | ok u => exact storeRow_abreast s r

/-- As many rows are set aside. -/
theorem ingestRows_abreast (s : BulkSettings) (n : Nat) (h : rows'.map c'.parse = rows.map c.parse) :
    Abreast (fun set set' => set'.length = set.length) (ingestRows s c n rows) (ingestRows s c' n rows') := by
  induction rows generalizing n rows' with
  | nil =>
    rw [List.map_eq_nil_iff.1 h]
    exact .pure rfl
  | cons row rest ih =>
    cases rows' with
    | nil => cases h
    | cons row' rest' =>
      obtain ⟨hrow, hrest⟩ := List.cons.inj h
      unfold ingestRows
      refine (ingestRow_abreast s hrow).bind ?_
      rintro res _ rfl
      cases res with
      | ok u => exact ih (n + 1) hrest
      | error e =>
        refine (Abreast.reject n e.message).bind fun _ _ _ => (ih (n + 1) hrest).bind fun set set' hlength => ?_
        exact .pure (congrArg (· + 1) hlength)

/-! ### The file as a whole -/

/-- Whether the rows set aside are stored does not rest on what they hold. -/
theorem writeSidecar_abreast (job job' : BulkJob) (header header' : Row) (h : rows'.length = rows.length) :
    Abreast (fun key key' => key'.isSome = key.isSome) (writeSidecar job header rows)
      (writeSidecar job' header' rows') := by
  have empty : rows'.isEmpty = rows.isEmpty := by
    rw [Bool.eq_iff_iff, List.isEmpty_iff_length_eq_zero, List.isEmpty_iff_length_eq_zero, h]
  unfold writeSidecar
  rw [empty]
  split
  · exact .pure rfl
  · refine Abreast.get.bind fun d d' _ => (Abreast.storeBlob _ _).bind fun r r' hr => ?_
    match r, r', hr with
    | .error _, .error _, _ => exact .pure rfl
    | .ok _, .ok _, _ => exact .pure (by simp only [Option.isSome_some])

/-- The reports are the same but for where the rows set aside are stored. -/
def BulkReport.Same (r r' : BulkReport) : Prop :=
  r' = { r with errorKey := r'.errorKey } ∧ r'.errorKey.isSome = r.errorKey.isSome

theorem ingestTable_abreast (s : BulkSettings) (job job' : BulkJob) {t t' : Table} (h : t.Regular) (h' : t'.Regular)
    (same : t'.outcome = t.outcome) :
    Abreast (fun r r' => ∃ report report', r = .ok report ∧ r' = .ok report' ∧ report.Same report')
      (ingestTable s job t.header t.rows) (ingestTable s job' t'.header t'.rows) := by
  obtain ⟨c, hc⟩ := h.columns
  obtain ⟨c', hc'⟩ := h'.columns
  have hrows : t'.rows.map c'.parse = t.rows.map c.parse := by
    unfold Table.outcome at same
    rw [hc, hc'] at same
    exact Except.ok.inj same
  have hlength : t'.rows.length = t.rows.length := by
    rw [← List.length_map, hrows, List.length_map]
  unfold ingestTable
  rw [hc, hc']
  refine (ingestRows_abreast s 1 hrows).bind fun set set' hset => ?_
  refine (writeSidecar_abreast job job' t.header t'.header hset).bind fun key key' hkey => ?_
  refine .pure ⟨_, _, rfl, rfl, ?_, hkey⟩
  rw [hlength, hset]

theorem ingest_of_fetched {job : BulkJob} {d : Depot} {body : Bytes}
    (fetched : d.fetch job.bucket job.key s.maxBytes = .ok body) :
    ingest s job d = ingestTable s job (Table.ofFile body).header (Table.ofFile body).rows
      (d.logged (.blobGet job.bucket job.key s.maxBytes true)) := by
  have hget : Depot.getBlob job.bucket job.key s.maxBytes d =
      (.ok body, d.logged (.blobGet job.bucket job.key s.maxBytes true)) := by
    unfold Depot.getBlob
    rw [fetched]
    rfl
  exact bind_eq hget

end

/-- Another layout of a table makes the same of every row. So the two files that hold them, if neither is too long,
are taken in alike: from depots that differ at most in their files to depots that do. -/
theorem ingest_relaid {t t' : Table} (regular : t.Regular) (relaid : t.Relaid t') :
    t'.Regular ∧ (∃ rs, t.outcome = .ok rs) ∧ t'.outcome = t.outcome ∧
      ∀ (s : BulkSettings) (job job' : BulkJob) (d d' : Depot) (body body' : Bytes), d.Alike d' →
        Table.ofFile body = t → Table.ofFile body' = t' → d.fetch job.bucket job.key s.maxBytes = .ok body →
        d'.fetch job'.bucket job'.key s.maxBytes = .ok body' →
        ∃ report report' after after', ingest s job d = (.ok report, after) ∧
          ingest s job' d' = (.ok report', after') ∧
          report.Same report' ∧ after'.orders = after.orders ∧ after'.rejections = after.rejections ∧
          after.Alike after' := by
  obtain ⟨regular', same⟩ := Table.outcome_of_relaid relaid regular
  obtain ⟨c, hc⟩ := regular.columns
  refine ⟨regular', ⟨_, by rw [Table.outcome, hc]; rfl⟩, same, ?_⟩
  intro s job job' d d' body body' alike file file' fetched fetched'
  have fetching : (d.logged (.blobGet job.bucket job.key s.maxBytes true)).Alike
      (d'.logged (.blobGet job'.bucket job'.key s.maxBytes true)) := alike.logged_files rfl rfl
  obtain ⟨⟨report, report', hr, hr', hsame⟩, alike'⟩ :=
    ingestTable_abreast s job job' regular regular' same _ _ fetching
  refine ⟨report, report', _, _, ?_, ?_, hsame, alike'.orders, alike'.rejections, alike'⟩
  · rw [ingest_of_fetched fetched, file]
    exact Prod.ext hr rfl
  · rw [ingest_of_fetched fetched', file']
    exact Prod.ext hr' rfl

/-! ### A file in two layouts -/

/-- One row makes an order, the other lacks its seller. -/
def narrowFile : Bytes :=
  Utf8.ofString "tenant_id,seller_id,hub_id,sku_id,quantity\nt1,s1,h1,k1,2\nt1,,h1,k1,1"

/-- The same with its columns the other way round, a column of notes among them, and white space in the header. -/
def wideFile : Bytes :=
  Utf8.ofString " quantity,note,sku_id\u00a0,hub_id,seller_id,tenant_id\n2,a,k1,h1,s1,t1\n1,\"b,c\",k1,h1,,t1"

def depotOfLayouts : Depot :=
  { depotOfBroken narrowFile with blobs := [⟨"b", "narrow.csv", narrowFile⟩, ⟨"b", "wide.csv", wideFile⟩] }

theorem narrow_regular : (Table.ofFile narrowFile).Regular := ⟨by decide +kernel, by decide +kernel⟩

theorem narrow_relaid_wide : (Table.ofFile narrowFile).Relaid (Table.ofFile wideFile) := by
  let row (fields : List String) : Row := fields.map Utf8.ofString
  have narrow : Table.ofFile narrowFile =
      ⟨row ["tenant_id", "seller_id", "hub_id", "sku_id", "quantity"],
        [row ["t1", "s1", "h1", "k1", "2"], row ["t1", "", "h1", "k1", "1"]]⟩ := by decide +kernel
  have wide : Table.ofFile wideFile =
      ⟨row [" quantity", "note", "sku_id\u00a0", "hub_id", "seller_id", "tenant_id"],
        [row ["2", "a", "k1", "h1", "s1", "t1"], row ["1", "b,c", "k1", "h1", "", "t1"]]⟩ := by decide +kernel
  rw [narrow, wide]
  have reordered : Table.Relays
      ⟨row ["tenant_id", "seller_id", "hub_id", "sku_id", "quantity"],
        [row ["t1", "s1", "h1", "k1", "2"], row ["t1", "", "h1", "k1", "1"]]⟩
      ⟨row ["quantity", "sku_id", "hub_id", "seller_id", "tenant_id"],
        [row ["2", "k1", "h1", "s1", "t1"], row ["1", "k1", "h1", "", "t1"]]⟩ :=
    .reordered [4, 3, 2, 1, 0] (by decide)
  have widened : Table.Relays
      ⟨row ["quantity", "sku_id", "hub_id", "seller_id", "tenant_id"],
        [row ["2", "k1", "h1", "s1", "t1"], row ["1", "k1", "h1", "", "t1"]]⟩
      ⟨row ["quantity", "note", "sku_id", "hub_id", "seller_id", "tenant_id"],
        [row ["2", "a", "k1", "h1", "s1", "t1"], row ["1", "b,c", "k1", "h1", "", "t1"]]⟩ :=
    .widened 1 (Utf8.ofString "note") (by decide) (by decide +kernel)
      (.cons ⟨Utf8.ofString "a", rfl⟩ (.cons ⟨Utf8.ofString "b,c", rfl⟩ .nil))
  have same (f : Bytes) : Table.Padded f f :=
    ⟨[], [], List.forall_mem_nil _, List.forall_mem_nil _, (List.append_nil _).symm⟩
  have padded : Table.Relays
      ⟨row ["quantity", "note", "sku_id", "hub_id", "seller_id", "tenant_id"],
        [row ["2", "a", "k1", "h1", "s1", "t1"], row ["1", "b,c", "k1", "h1", "", "t1"]]⟩
      ⟨row [" quantity", "note", "sku_id\u00a0", "hub_id", "seller_id", "tenant_id"],
        [row ["2", "a", "k1", "h1", "s1", "t1"], row ["1", "b,c", "k1", "h1", "", "t1"]]⟩ :=
    .padded (.cons ⟨[' '], [], List.forall_mem_singleton.2 (by decide), List.forall_mem_nil _, by decide⟩
      (.cons (same _)
      (.cons ⟨[], ['\u00a0'], List.forall_mem_nil _, List.forall_mem_singleton.2 (by decide), by decide⟩
        (.cons (same _) (.cons (same _) (.cons (same _) .nil))))))
  exact ((Relation.ReflTransGen.single reordered).tail widened).tail padded

/-- With the limit that the narrow layout just keeps to, the wide one is not taken in, and makes no order. -/
theorem relaid_outgrows_limit :
    (Table.ofFile narrowFile).Regular ∧ (Table.ofFile narrowFile).Relaid (Table.ofFile wideFile) ∧
      (ingest (upTo narrowFile.length) ⟨"b", "narrow.csv"⟩ depotOfLayouts).1.toOption =
        some ⟨2, 1, 1, some "errors/narrow.csv-1735603200.csv"⟩ ∧
      (ingest (upTo narrowFile.length) ⟨"b", "narrow.csv"⟩ depotOfLayouts).2.orders.length = 1 ∧
      (ingest (upTo narrowFile.length) ⟨"b", "wide.csv"⟩ depotOfLayouts).1.isOk = false ∧
      (ingest (upTo narrowFile.length) ⟨"b", "wide.csv"⟩ depotOfLayouts).2.orders = [] :=
  ⟨narrow_regular, narrow_relaid_wide, by decide +kernel, by decide +kernel, by decide +kernel, by decide +kernel⟩

theorem ingest_relaid_of_wide :
    (Table.ofFile narrowFile).Regular ∧ (Table.ofFile narrowFile).Relaid (Table.ofFile wideFile) ∧
      ∃ report report' after after', ingest (upTo 1000) ⟨"b", "narrow.csv"⟩ depotOfLayouts = (.ok report, after) ∧
        ingest (upTo 1000) ⟨"b", "wide.csv"⟩ depotOfLayouts = (.ok report', after') ∧ report.Same report' ∧
        after'.orders = after.orders ∧ after'.rejections = after.rejections ∧ after.Alike after' :=
  ⟨narrow_regular, narrow_relaid_wide,
    (ingest_relaid narrow_regular narrow_relaid_wide).2.2.2 _ _ _ _ _ _ _ (.refl depotOfLayouts) rfl rfl
      (Depot.fetch_eq_ok_iff.2 ⟨by decide +kernel, by decide +kernel⟩)
      (Depot.fetch_eq_ok_iff.2 ⟨by decide +kernel, by decide +kernel⟩)⟩

end Fulfilment
