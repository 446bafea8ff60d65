import Fulfilment.Proofs.Bulk.Batch
import Fulfilment.Proofs.Bulk.Header
import Fulfilment.Proofs.Depot.Files

/-!
# The account of a file

What the report of a file says is borne out by the calls: the orders that were tried to be stored are those of the
rows that can be parsed and whose article is good enough, each order stored is announced at once (`Announced`), a row
is accepted just when its announcement was published (`Turn.Took.countP_publishes`), and the others are set aside in
the order of the file (`ingest_accounts`).
-/

namespace Fulfilment

open Depot (Booked)

/-! ### Calls -/

namespace Call

/-- The draft that a call tries to store. -/
def draft? : Call → Option Draft
  | .insert draft _ => some draft
  | _ => none

/-- Whether a call neither stores an order nor tries to publish anything under a topic. -/
def quiet (topic : String) : Call → Bool
  | .insert _ (some _) => false
  | .publish topic' .. => topic' != topic
  | _ => true

end Call

/-- Calls that store these orders: each is announced right after it is stored, and nothing else is published under the
topic. -/
inductive Announced (topic : String) : List Call → List Order → Prop
  | none : Announced topic [] []
  | quiet {c : Call} {cs : List Call} {os : List Order}
      (quiet : c.quiet topic = true) (later : Announced topic cs os) :
    Announced topic (c :: cs) os
  | order {draft : Draft} {id : Uuid} {time : Instant} {cs : List Call} {os : List Order} (told : Bool)
      (later : Announced topic cs os) :
    Announced topic (.insert draft (some id) :: (draft.order id time).announcing topic told :: cs)
      (draft.order id time :: os)

namespace Announced

variable {topic : String} {cs cs' : List Call} {os os' : List Order}

theorem append (h : Announced topic cs os) (h' : Announced topic cs' os') :
    Announced topic (cs ++ cs') (os ++ os') := by
  induction h with
  | none => exact h'
  | quiet quiet _ ih => exact .quiet quiet ih
  | order told _ ih => exact .order told ih

theorem of_quiet (h : ∀ c ∈ cs, c.quiet topic = true) : Announced topic cs [] := by
  induction cs with
  | nil => exact .none
  | cons c cs ih =>
    rw [List.forall_mem_cons] at h
    exact .quiet h.1 (ih h.2)

/-- What was published, or tried to be, announces an order that was stored. -/
theorem of_publish {key : String} {payload : Bytes} {told : Bool} (h : Announced topic cs os)
    (hc : .publish topic key payload told ∈ cs) :
    ∃ o ∈ os, .publish topic key payload told = o.announcing topic told := by
  induction h with
  | none => cases hc
  | quiet quiet _ ih =>
    rcases List.mem_cons.1 hc with rfl | hc
    · simp [Call.quiet] at quiet
    · exact ih hc
  | @order draft id time cs os told' _ ih =>
    rcases List.mem_cons.1 hc with hc | hc
    · cases hc
    rcases List.mem_cons.1 hc with hc | hc
    · have hsame := hc
      cases hsame
      exact ⟨_, List.mem_cons_self .., hc⟩
    · obtain ⟨o, ho, he⟩ := ih hc
      exact ⟨o, List.mem_cons_of_mem _ ho, he⟩

end Announced

/-! ### Rows -/

section

variable {s : BulkSettings} {c : Columns} {row : Row} {r : OrderRequest} {d d' : Depot} {cs : List Call}

/-- The order that a row asks for, if it can be parsed and its article is good enough. -/
def wantedDraft? (s : BulkSettings) (c : Columns) (d : Depot) (row : Row) : Option Draft :=
  match c.parse row with
  | .error _ => none
  | .ok r =>
    if s.admits d r then
      some
        { tenantId := r.tenantId
          sellerId := r.sellerId
          hubId := r.hubId
          skuId := r.skuId
          quantity := r.quantity
          status := "on_hold" }
    else none

theorem VerifyingRow.quiet {res : Except InventoryError Unit} (h : VerifyingRow s r d res cs) :
    ∀ x ∈ cs, x.quiet s.createdTopic = true := by
  cases h <;> simp [Call.quiet]

theorem VerifyingRow.filterMap_draft? {res : Except InventoryError Unit} (h : VerifyingRow s r d res cs) :
    cs.filterMap Call.draft? = [] := by
  cases h <;> rfl

theorem VerifyingRow.countP_publishes {res : Except InventoryError Unit} (h : VerifyingRow s r d res cs)
    (topic : String) : cs.countP (·.publishes topic) = 0 := by
  cases h <;> rfl

theorem VerifyingRow.isOk_eq_admits {res : Except InventoryError Unit} (h : VerifyingRow s r d res cs) :
    res.isOk = s.admits d r := by
  cases h with
  | unasked admitted => exact admitted.symm
  | found admitted => exact admitted.symm
  | missing refused => exact refused.symm

/-- An order is tried to be stored just when the row asks for one that will do, and just once. -/
theorem TakingRow.filterMap_draft? {res : Except RowError Unit} (h : TakingRow s c row d res cs) :
    cs.filterMap Call.draft? = (wantedDraft? s c d row).toList := by
  unfold wantedDraft?
  cases h with
  | invalid fault => rw [fault]; rfl
  | unverified parsed verifying =>
    have refused := verifying.isOk_eq_admits
    -- a lookup that ends in an error is one that does not admit the row
    rw [parsed, verifying.filterMap_draft?]
    dsimp only
    rw [← refused]
    rfl
  | storing parsed verifying storing =>
    have admitted := verifying.isOk_eq_admits
    rw [parsed, List.filterMap_append, verifying.filterMap_draft?]
    dsimp only
    rw [← admitted]
    cases storing <;> rfl

/-- A row is accepted just when something was published for it, and then once. -/
theorem TakingRow.countP_publishes {res : Except RowError Unit} (h : TakingRow s c row d res cs) :
    cs.countP (·.publishes s.createdTopic) = if res.isOk then 1 else 0 := by
  cases h with
  | invalid => rfl
  | unverified _ verifying => exact verifying.countP_publishes _
  | storing _ verifying storing =>
    rw [List.countP_append, verifying.countP_publishes]
    cases storing with
    | notStored => rfl
    | notTold => rfl
    | stored => simp [OrderRequest.storing, Order.announcing, Call.publishes, Except.isOk, Except.toBool]

/-- An order that is stored is announced, and nothing else is published. -/
theorem TakingRow.announced {res : Except RowError Unit} (h : TakingRow s c row d res cs) (hb : Booked d cs d') :
    ∃ os, Announced s.createdTopic cs os ∧ d'.orders = d.orders ++ os := by
  have none (quiet : ∀ x ∈ cs, x.quiet s.createdTopic = true) (unwritten : ∀ x ∈ cs, x.writesOrders = false) :
      ∃ os, Announced s.createdTopic cs os ∧ d'.orders = d.orders ++ os :=
    ⟨[], .of_quiet quiet, by rw [(hb.orders_of_not_writes unwritten).1, List.append_nil]⟩
  cases h with
  | invalid => exact none (by simp) (by simp)
  | unverified _ verifying => exact none verifying.quiet verifying.not_writesOrders
  | @storing r _ cs₁ _ _ verifying storing =>
    have one (told : Bool) (hb : Booked d (cs₁ ++ r.storing s.createdTopic d told) d') :
        ∃ os, Announced s.createdTopic (cs₁ ++ r.storing s.createdTopic d told) os ∧ d'.orders = d.orders ++ os :=
      ⟨_, (Announced.of_quiet verifying.quiet).append (.order told .none),
        orders_of_storing hb verifying.not_writesOrders⟩
    cases storing with
    | notStored =>
      refine none ?_ ?_
      · rw [List.forall_mem_append]
        exact ⟨verifying.quiet, by simp [Call.quiet]⟩
      · rw [List.forall_mem_append]
        exact ⟨verifying.not_writesOrders, by simp [Call.writesOrders]⟩
    | notTold => exact one false hb
    | stored => exact one true hb

end

/-! ### Files -/

namespace Turns

variable {s : BulkSettings} {c : Columns} {n : Nat} {d d' : Depot} {ts : List Turn}

theorem drafts (h : Turns s c n d ts d') :
    (ts.flatMap (·.calls)).filterMap Call.draft? = ts.filterMap fun t => wantedDraft? s c t.before t.row := by
  induction h with
  | none => rfl
  | @more t ts d' took _ ih =>
    rw [List.flatMap_cons, List.filterMap_append, took.fared.filterMap_draft?, ih, List.filterMap_cons]
    cases wantedDraft? s c t.before t.row <;> rfl

/-- Every row is accepted or set aside, and it is accepted just when something was published for it. -/
theorem countP_publishes (h : Turns s c n d ts d') :
    (ts.flatMap (·.calls)).countP (·.publishes s.createdTopic) + (rejectedRows ts).length = ts.length := by
  induction h with
  | none => rfl
  | @more t ts d' took _ ih =>
    -- one turn adds one to the rows, either as something published or as a row set aside
    have hone : t.calls.countP (·.publishes s.createdTopic) + (rejectedRows [t]).length = 1 := by
      rw [took.fared.countP_publishes]
      cases hr : t.result <;> simp [rejectedRows, Turn.rejected, Except.isOk, Except.toBool, hr]
    have hrejected : (rejectedRows (t :: ts)).length = (rejectedRows [t]).length + (rejectedRows ts).length := by
      rw [← List.length_append]
      unfold rejectedRows
      rw [← List.map_append, ← List.filter_append]
      rfl
    rw [List.flatMap_cons, List.countP_append, List.length_cons, hrejected]
    omega

theorem announced (h : Turns s c n d ts d') :
    ∃ os, Announced s.createdTopic (ts.flatMap (·.calls)) os ∧ d'.orders = d.orders ++ os := by
  induction h with
  | none n d => exact ⟨[], .none, (List.append_nil _).symm⟩
  | @more t ts d' took _ ih =>
    obtain ⟨os, hos, horders⟩ := took.fared.announced took.booked
    obtain ⟨os', hos', horders'⟩ := ih
    refine ⟨os ++ os', hos.append hos', ?_⟩
    rw [horders', show t.noted.orders = t.after.orders from rfl, horders, List.append_assoc]

end Turns

/-- What the report of a file that was taken in says, and the calls that bear it out: those of the turns of its rows,
and those by which the rows set aside were filed. -/
structure Accounted (s : BulkSettings) (c : Columns) (job : BulkJob) (body : Bytes) (d : Depot) (report : BulkReport)
    (ts : List Turn) (filing : List Call) (d' : Depot) : Prop where
  /-- Every row has one turn, in the order of the file. -/
  turns : ∃ d₁, Turns s c 1 (d.logged (.blobGet job.bucket job.key s.maxBytes true)) ts d₁ ∧ Booked d₁ filing d'
  rows : ts.map (·.row) = (Csv.table body).2
  calls : d'.calls =
    d.calls ++ .blobGet job.bucket job.key s.maxBytes true :: (ts.flatMap (·.calls) ++ filing)
  total : report.total = (Csv.table body).2.length
  sum : report.total = report.accepted + report.rejected
  drafts : (ts.flatMap (·.calls)).filterMap Call.draft? = ts.filterMap fun t => wantedDraft? s c t.before t.row
  announced : ∃ os, Announced s.createdTopic (ts.flatMap (·.calls)) os ∧ d'.orders = d.orders ++ os
  accepted : report.accepted = (ts.flatMap (·.calls)).countP (·.publishes s.createdTopic)
  /-- The rows set aside are those for which nothing was published. -/
  told : ∀ t ∈ ts, t.calls.countP (·.publishes s.createdTopic) = if t.rejected then 0 else 1
  rejected : report.rejected = (rejectedRows ts).length
  /-- An order that could not be announced is stored, and its row is set aside. -/
  untold : ∀ t ∈ ts, ∀ key payload, .publish s.createdTopic key payload false ∈ t.calls →
    t.row ∈ rejectedRows ts ∧
      ∃ o ∈ d'.orders, .publish s.createdTopic key payload false = o.announcing s.createdTopic false
  filed : ∃ stored, filing =
    if report.rejected = 0 then []
    else
      [.blobPut job.bucket (sidecarKey job.key d.supply.now.unixSeconds)
        (Csv.write ((Csv.table body).1 :: rejectedRows ts)) stored]
  errorKey : ∀ key, report.errorKey = some key ↔
    0 < report.rejected ∧ .blobPut job.bucket key (Csv.write ((Csv.table body).1 :: rejectedRows ts)) true ∈ filing

section

variable {sidecar : Blob} {rows : List Row} {blobs blobs' : List Blob} {key : Option String} {cs : List Call}

theorem WritingSidecar.not_writesOrders (h : WritingSidecar sidecar rows blobs key cs blobs') :
    ∀ x ∈ cs, x.writesOrders = false := by
  cases h <;> simp [Call.writesOrders]

/-- The file is put once if there are rows. -/
theorem WritingSidecar.calls_eq (h : WritingSidecar sidecar rows blobs key cs blobs') :
    ∃ stored, cs = if rows.length = 0 then [] else [.blobPut sidecar.bucket sidecar.key sidecar.body stored] := by
  cases h with
  | needless empty => exact ⟨true, by rw [empty]; rfl⟩
  | refused nonempty => exact ⟨false, by rw [if_neg (by simpa using nonempty)]⟩
  | stored nonempty => exact ⟨true, by rw [if_neg (by simpa using nonempty)]⟩

/-- A key is told just when there are rows and the file of them was stored under it. -/
theorem WritingSidecar.key_iff (h : WritingSidecar sidecar rows blobs key cs blobs') (k : String) :
    key = some k ↔ 0 < rows.length ∧ .blobPut sidecar.bucket k sidecar.body true ∈ cs := by
  cases h with
  | needless => simp
  | refused => simp
  | stored nonempty =>
    have hpos : 0 < rows.length := List.length_pos_iff.2 nonempty
    simp [hpos, eq_comm]

end

section

variable {s : BulkSettings} {c : Columns} {job : BulkJob} {body : Bytes} {d : Depot}

/-- A row is set aside when its order could not be announced. -/
theorem TakingRow.isOk_of_publish {row : Row} {res : Except RowError Unit} {cs : List Call} {topic key : String}
    {payload : Bytes} (h : TakingRow s c row d res cs) (hc : .publish topic key payload false ∈ cs) :
    res.isOk = false := by
  cases h with
  | invalid => rfl
  | unverified => rfl
  | storing _ verifying storing =>
    cases storing with
    | notStored => rfl
    | notTold => rfl
    | stored =>
      rcases List.mem_append.1 hc with hc | hc
      · cases verifying <;> simp at hc
      · simp [OrderRequest.storing, Order.announcing] at hc

/-- The report of a file that is at hand and has the columns is borne out by the calls. -/
theorem ingest_accounts (fetched : d.fetch job.bucket job.key s.maxBytes = .ok body)
    (header : Columns.ofHeader (Csv.table body).1 = .ok c) :
    ∃ report ts filing d', ingest s job d = (.ok report, d') ∧ Accounted s c job body d report ts filing d' := by
  obtain ⟨ts, d₁, errorKey, filing, d', hi, taking⟩ := ingest_takes job fetched header
  have turns := taking.turns
  have hlength : ts.length = (Csv.table body).2.length := by rw [← taking.rows, List.length_map]
  have hcount := turns.countP_publishes
  obtain ⟨os, hos, horders⟩ := turns.announced
  have horders' : d'.orders = d.orders ++ os :=
    (taking.booked.orders_of_not_writes taking.sidecar.not_writesOrders).1.trans horders
  refine ⟨_, ts, filing, d', hi, ?_⟩
  unfold reportOf
  -- one case for each thing that the account says
  constructor
  case turns => exact ⟨d₁, turns, taking.booked⟩
  case rows => exact taking.rows
  case calls =>
    rw [taking.booked.calls, turns.booked.calls]
    simp [Depot.logged]
  case total => exact hlength
  case sum =>
    dsimp only
    omega
  case drafts => exact turns.drafts
  case announced => exact ⟨os, hos, horders'⟩
  case accepted =>
    dsimp only
    omega
  case told =>
    intro t ht
    rw [(turns.took t ht).fared.countP_publishes]
    unfold Turn.rejected
    cases t.result.isOk <;> rfl
  case rejected => rfl
  case untold =>
    intro t ht key payload hc
    have hmem : .publish s.createdTopic key payload false ∈ ts.flatMap (·.calls) := List.mem_flatMap.2 ⟨t, ht, hc⟩
    obtain ⟨o, ho, he⟩ := hos.of_publish hmem
    have hrejected : t.rejected = true := by
      unfold Turn.rejected
      rw [(turns.took t ht).fared.isOk_of_publish hc]
      rfl
    refine ⟨mem_rejectedRows.2 ⟨t, ht, hrejected, rfl⟩, o, ?_, he⟩
    rw [horders']
    exact List.mem_append_right _ ho
  case filed => exact taking.sidecar.calls_eq
  case errorKey => exact taking.sidecar.key_iff

end

/-! ### A file of five rows -/

/-- A file of five rows. The quantity of the first is no number, and there is no record of the article of the
second. -/
def fileOfFive : Bytes :=
  Utf8.ofString ("tenant_id,seller_id,hub_id,sku_id,quantity\n" ++
    "t1,s1,h1,k1,x\nt1,s1,h1,k2,1\nt1,s1,h1,k1,1\nt1,s1,h1,k1,2\nt1,s1,h1,k1,3\n")

def lastOfJune : Instant := ⟨⟨2024, 6, 30, by decide⟩, 0, 0, .refl true⟩

/-- Identifiers that end in a number. -/
def numbered (n : Nat) : Uuid := ⟨List.replicate 31 (0#4).toFin ++ [(BitVec.ofNat 4 n).toFin], by simp⟩

/-- The file of five rows, in a depot that will fail to store an order and to announce one, each once. -/
def depotOfFive : Depot :=
  { Depot.opened ⟨lastOfJune, fun n => (numbered n, lastOfJune), numbered⟩ with
    stock := [⟨"h1", "k1", 10, 0, none⟩]
    blobs := [⟨"b", "orders.csv", fileOfFive⟩]
    inserts := ⟨false, 1, []⟩
    bus := { Bus.empty with outage := ⟨false, 1, []⟩ } }

def verifyingSettings : BulkSettings := ⟨Topic.orderCreated, true, 1000⟩

/-- The rows of the file fall out at every stage, and the last does not. -/
theorem ingest_accounts_of_five :
    depotOfFive.fetch "b" "orders.csv" 1000 = .ok fileOfFive ∧
      Columns.ofHeader (Csv.table fileOfFive).1 = .ok ⟨0, 1, 2, 3, 4⟩ ∧
      (ingest verifyingSettings ⟨"b", "orders.csv"⟩ depotOfFive).1.toOption =
        some ⟨5, 1, 4, some "errors/orders.csv-1719705600.csv"⟩ ∧
      ∃ report ts filing d', ingest verifyingSettings ⟨"b", "orders.csv"⟩ depotOfFive = (.ok report, d') ∧
        Accounted verifyingSettings ⟨0, 1, 2, 3, 4⟩ ⟨"b", "orders.csv"⟩ fileOfFive depotOfFive
          report ts filing d' := by
  have fetched : depotOfFive.fetch "b" "orders.csv" 1000 = .ok fileOfFive :=
    Depot.fetch_eq_ok_iff.2 ⟨by decide +kernel, by decide +kernel⟩
  have header : Columns.ofHeader (Csv.table fileOfFive).1 = .ok ⟨0, 1, 2, 3, 4⟩ :=
    Columns.ofHeader_eq_ok_iff.2 (by decide +kernel)
  exact ⟨fetched, header, by decide +kernel, ingest_accounts fetched header⟩

end Fulfilment
