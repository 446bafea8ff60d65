import Fulfilment.Proofs.Bulk.Sidecar
import Fulfilment.Proofs.Text.Numeral
import Fulfilment.Text.Parts

/-!
# The keys of rows set aside

The file of the rows that were set aside lies in the folder `errors` itself (`liesIn_sidecarKey`), whatever the key of
the file they are from. Its name has the last part of that key in front and the time behind. The two are joined by a
hyphen and nothing is escaped, but a time that is not negative has digits only, so it stands behind the last hyphen
(`toString_eq_takeWhile`). So the key tells both (`sidecarKey_inj`), also where the part ends in a hyphen and digits.
No other file is put while a file is taken in (`ingest_puts`, `sidecarKeys_apart`).
-/

namespace Fulfilment

/-- The last of the parts of a key that slashes separate. -/
def lastPart (key : String) : List Char := (partsAt '/' key.toList).getLast (partsAt_ne_nil '/' key.toList)

/-- The key is that of a file which lies in the folder itself, and not in a folder below it. -/
def LiesIn (folder key : String) : Prop := ∃ name : List Char, key.toList = folder.toList ++ '/' :: name ∧ '/' ∉ name

variable {key key' : String} {t t' : Int} {part part' : List Char}

/-! ### Parts -/

theorem not_mem_lastSegment (cs : List Char) : '/' ∉ lastSegment cs :=
  fun h => absurd ((eq_reverse_takeWhile_iff.1 (show lastSegment cs = _ from rfl)).1 _ h) (by decide)

theorem partsAt_eq_append_lastSegment (cs : List Char) : ∃ fronts, partsAt '/' cs = fronts ++ [lastSegment cs] := by
  have alone : partsAt '/' (lastSegment cs) = [lastSegment cs] := partsAt_of_not_mem (not_mem_lastSegment cs)
  rcases (eq_reverse_takeWhile_iff.1 (show lastSegment cs = _ from rfl)).2 with whole | ⟨front, c, hc, split⟩
  · exact ⟨[], by rw [List.nil_append, ← alone, ← whole]⟩
  · have slash : c = '/' := by simpa using hc
    refine ⟨partsAt '/' front, ?_⟩
    rw [← alone, ← partsAt_append_cons, ← slash, ← split]

theorem lastSegment_eq_lastPart (key : String) : lastSegment key.toList = lastPart key := by
  obtain ⟨fronts, h⟩ := partsAt_eq_append_lastSegment key.toList
  simp only [lastPart, h, List.getLast_concat]

theorem not_mem_lastPart : '/' ∉ lastPart key := by
  rw [← lastSegment_eq_lastPart]
  exact not_mem_lastSegment _

/-! ### Times -/

theorem slash_not_mem_toString (t : Int) : '/' ∉ (toString t).toList := by
  have digits (n : Nat) : '/' ∉ Nat.toDigits 10 n := fun h => absurd (isDigit_toDigits _ h) (by decide)
  rcases Numeral.toList_toString_cases t with ⟨n, -, h⟩ | ⟨n, -, h⟩
  · rw [h]
    exact digits n
  · rw [h, List.mem_cons, not_or]
    exact ⟨by decide, digits n⟩

theorem hyphen_not_mem_toString (h : 0 ≤ t) : '-' ∉ (toString t).toList := by
  obtain ⟨n, rfl⟩ := Int.eq_ofNat_of_zero_le h
  rw [toList_toString_natCast]
  exact fun h => absurd (isDigit_toDigits _ h) (by decide)

/-- The name of the file of rows set aside, without its ending. -/
def sidecarStem (part : List Char) (t : Int) : List Char := part ++ '-' :: (toString t).toList

theorem toList_sidecarKey (key : String) (t : Int) :
    (sidecarKey key t).toList = "errors".toList ++ '/' :: (sidecarStem (lastPart key) t ++ ".csv".toList) := by
  have folder : "errors/".toList = "errors".toList ++ ['/'] := by decide
  have hyphen : "-".toList = ['-'] := by decide
  simp only [sidecarKey, sidecarStem, lastSegment_eq_lastPart, String.toList_append, String.toList_ofList, folder,
    hyphen, List.append_assoc, List.cons_append, List.nil_append]

theorem liesIn_sidecarKey (key : String) (t : Int) : LiesIn "errors" (sidecarKey key t) := by
  refine ⟨_, toList_sidecarKey key t, ?_⟩
  simp only [sidecarStem, List.mem_append, List.mem_cons, not_or]
  exact ⟨⟨not_mem_lastPart, by decide, slash_not_mem_toString t⟩, by decide⟩

/-- The time is what stands behind the last hyphen, wherever there are others. -/
theorem toString_eq_takeWhile (h : 0 ≤ t) (part : List Char) :
    (toString t).toList = ((sidecarStem part t).reverse.takeWhile (· != '-')).reverse := by
  rw [eq_reverse_takeWhile_iff]
  refine ⟨fun c hc => ?_, .inr ⟨part, '-', rfl, rfl⟩⟩
  rw [bne_iff_ne]
  rintro rfl
  exact hyphen_not_mem_toString h hc

theorem sidecarStem_inj (h : 0 ≤ t) (h' : 0 ≤ t') :
    sidecarStem part t = sidecarStem part' t' ↔ part = part' ∧ t = t' := by
  constructor
  · intro heq
    -- the time first, which is told by the whole, and then the part, which is what is left of it
    have digits : (toString t).toList = (toString t').toList := by
      rw [toString_eq_takeWhile h part, heq, ← toString_eq_takeWhile h' part']
    have time : t = t' := (digits ▸ Numeral.writes_toString t).unique (Numeral.writes_toString t')
    rw [sidecarStem, sidecarStem, digits] at heq
    exact ⟨List.append_cancel_right heq, time⟩
  · rintro ⟨rfl, rfl⟩
    rfl

theorem sidecarKey_inj (h : 0 ≤ t) (h' : 0 ≤ t') :
    sidecarKey key t = sidecarKey key' t' ↔ lastPart key = lastPart key' ∧ t = t' := by
  rw [← String.toList_inj, toList_sidecarKey, toList_sidecarKey, List.append_right_inj, List.cons_inj_right,
    List.append_left_inj, sidecarStem_inj h h']

-- below zero a hyphen may be the sign of the time or the end of the part
example : sidecarKey "a-" 5 = sidecarKey "a" (-5) := by decide

/-! ### Files of jobs -/

/-- The bucket and the key of a file that a call puts. -/
def Call.putAt? : Call → Option (String × String)
  | .blobPut bucket key .. => some (bucket, key)
  | _ => none

section

variable {s : BulkSettings} {c : Columns} {row : Row} {d d' : Depot} {cs : List Call}

theorem TakingRow.putAt?_eq_none {res : Except RowError Unit} (h : TakingRow s c row d res cs) :
    ∀ x ∈ cs, x.putAt? = none := by
  have looks {r : OrderRequest} {res : Except InventoryError Unit} {cs : List Call} (h : VerifyingRow s r d res cs) :
      ∀ x ∈ cs, x.putAt? = none := by
    cases h <;> simp [Call.putAt?]
  cases h with
  | invalid => exact List.forall_mem_nil _
  | unverified _ verifying => exact looks verifying
  | storing _ verifying storing =>
    rw [List.forall_mem_append]
    refine ⟨looks verifying, ?_⟩
    cases storing <;> simp [OrderRequest.storing, Order.announcing, Call.putAt?]

theorem Turns.putAt?_eq_none {n : Nat} {ts : List Turn} (h : Turns s c n d ts d') :
    ∀ x ∈ ts.flatMap (·.calls), x.putAt? = Option.none := by
  intro x hx
  obtain ⟨t, ht, hx⟩ := List.mem_flatMap.1 hx
  exact (h.took t ht).fared.putAt?_eq_none x hx

theorem WritingSidecar.putAt?_eq {sidecar : Blob} {rows : List Row} {blobs blobs' : List Blob} {key : Option String}
    (h : WritingSidecar sidecar rows blobs key cs blobs') :
    ∀ place ∈ cs.filterMap Call.putAt?, place = (sidecar.bucket, sidecar.key) := by
  cases h <;> simp [Call.putAt?]

/-- Taking in a file puts no file but that of the rows set aside. -/
theorem ingest_puts (s : BulkSettings) (job : BulkJob) (d : Depot) :
    ∃ cs, (ingest s job d).2.calls = d.calls ++ cs ∧
      ∀ place ∈ cs.filterMap Call.putAt?, place = (job.bucket, sidecarKey job.key d.supply.now.unixSeconds) := by
  obtain ⟨res, ts, d', hi, h⟩ := ingest_spec s job d
  rw [hi]
  cases h with
  | notFetched => exact ⟨_, rfl, by simp [Call.putAt?]⟩
  | refused => exact ⟨_, rfl, by simp [Call.putAt?]⟩
  | @taken c body _ d₁ _ key filing taking =>
    have rows : (ts.flatMap (·.calls)).filterMap Call.putAt? = [] :=
      List.filterMap_eq_nil_iff.2 taking.turns.putAt?_eq_none
    refine ⟨.blobGet job.bucket job.key s.maxBytes true :: (ts.flatMap (·.calls) ++ filing), ?_, ?_⟩
    · rw [taking.booked.calls, taking.turns.booked.calls]
      simp [Depot.logged]
    · rw [List.filterMap_cons_none rfl, List.filterMap_append, rows, List.nil_append]
      exact taking.sidecar.putAt?_eq

end

/-- What is put while a file is taken in lies in the folder `errors` itself. Two keys of such files are the same just
when the last parts of the keys they are from are, and the times, of which none is negative. -/
theorem sidecarKeys_apart (s : BulkSettings) (job : BulkJob) (d : Depot) :
    (∀ key t, LiesIn "errors" (sidecarKey key t)) ∧
      (∀ key key' t t', 0 ≤ t → 0 ≤ t' →
        (sidecarKey key t = sidecarKey key' t' ↔ lastPart key = lastPart key' ∧ t = t')) ∧
      ∃ cs, (ingest s job d).2.calls = d.calls ++ cs ∧ ∀ place ∈ cs.filterMap Call.putAt?,
        place = (job.bucket, sidecarKey job.key d.supply.now.unixSeconds) ∧ LiesIn "errors" place.2 := by
  obtain ⟨cs, calls, puts⟩ := ingest_puts s job d
  refine ⟨liesIn_sidecarKey, fun _ _ _ _ => sidecarKey_inj, cs, calls, fun place hplace => ?_⟩
  have heq := puts place hplace
  exact ⟨heq, heq ▸ liesIn_sidecarKey _ _⟩

/-- A digit at the end of the part is told from one in front of the time. -/
theorem sidecarKeys_apart_of_hyphens :
    let puts := (ingest (upTo 1000) ⟨"b", "orders.csv"⟩ (depotOfBroken brokenFile)).2.calls.filterMap Call.putAt?
    (0 : Int) ≤ 7 ∧ (0 : Int) ≤ 57 ∧ sidecarKey "in/a-5" 7 = sidecarKey "a-5" 7 ∧
      sidecarKey "in/a-5" 7 ≠ sidecarKey "in/a-" 57 ∧ puts = [("b", "errors/orders.csv-1735603200.csv")] ∧
      LiesIn "errors" "errors/orders.csv-1735603200.csv" := by
  obtain ⟨-, inj, cs, calls, puts⟩ :=
    sidecarKeys_apart (upTo 1000) ⟨"b", "orders.csv"⟩ (depotOfBroken brokenFile)
  have place : (ingest (upTo 1000) ⟨"b", "orders.csv"⟩ (depotOfBroken brokenFile)).2.calls.filterMap Call.putAt? =
      [("b", "errors/orders.csv-1735603200.csv")] := by decide +kernel
  refine ⟨by decide, by decide, (inj _ _ _ _ (by decide) (by decide)).2 (by decide), fun h => ?_, place, ?_⟩
  · exact absurd ((inj _ _ _ _ (by decide) (by decide)).1 h) (by decide)
  · have hcs : cs.filterMap Call.putAt? = [("b", "errors/orders.csv-1735603200.csv")] := by
      rw [← place, calls]
      rfl
    exact (puts _ (hcs ▸ List.mem_singleton_self _)).2

end Fulfilment
