import Fulfilment.Proofs.Bulk.Rows
import Fulfilment.Proofs.Text.Blank
import Fulfilment.Proofs.Text.Numeral

/-!
# One verdict on both ways in

An order may come as a request of its own, whose identifiers are trimmed before it is validated, or as the row of a
file, whose fields are trimmed before the quantity is read. Where the row holds what the request holds
(`Columns.Holds`), the verdict is the same (`Columns.parse_eq_validate`): the same fault, or the same trimmed request.
So an order is refused as invalid in one way just when it is in the other (`row_verdict_eq_request_verdict`).
-/

namespace Fulfilment

/-! ### Trimming and validating -/

namespace OrderRequest

theorem trimmed_idem (r : OrderRequest) : r.trimmed.trimmed = r.trimmed := by
  simp only [trimmed, Fulfilment.trimmed_trimmed]

theorem identifiers_trimmed (r : OrderRequest) :
    r.trimmed.identifiers = r.identifiers.map fun i => (i.1, Fulfilment.trimmed i.2) := rfl

/-- An identifier counts as empty whether it is trimmed or not. -/
theorem validate_trimmed (r : OrderRequest) : r.trimmed.validate = r.validate := by
  have hfind : r.trimmed.identifiers.find? (fun i => blank i.2) =
      (r.identifiers.find? fun i => blank i.2).map fun i => (i.1, Fulfilment.trimmed i.2) := by
    rw [identifiers_trimmed, List.find?_map]
    simp only [Function.comp_def, blank_trimmed]
  unfold validate
  rw [hfind]
  cases r.identifiers.find? fun i => blank i.2 <;> rfl

end OrderRequest

/-- A request is refused as invalid just when it does not pass validation. -/
theorem Creating.invalid_iff {topic : String} {request : OrderRequest} {d : Depot} {r : Except IntakeError Uuid}
    {cs : List Call} (h : Creating topic request d r cs) (e : ValidationError) :
    r = .error (.invalid e) ↔ request.trimmed.validate = .error e := by
  cases h with
  | invalid fault => simp [fault]
  | @notReserved fault _ valid =>
    cases fault <;> simp [valid, IntakeError.ofInventoryError]
  | insufficient valid => simp [valid]
  | notStored valid => simp [valid]
  | stored _ valid => simp [valid]

/-! ### Rows -/

namespace Columns

/-- The row holds the request: the identifiers as they are, and the quantity in decimal, perhaps with white space
around it. -/
structure Holds (c : Columns) (row : Row) (r : OrderRequest) : Prop where
  tenantId : (row[c.tenantId]?).getD [] = Utf8.ofString r.tenantId
  sellerId : (row[c.sellerId]?).getD [] = Utf8.ofString r.sellerId
  hubId : (row[c.hubId]?).getD [] = Utf8.ofString r.hubId
  skuId : (row[c.skuId]?).getD [] = Utf8.ofString r.skuId
  quantity : ∃ before after, (∀ x ∈ before, isBlank x = true) ∧ (∀ x ∈ after, isBlank x = true) ∧
    (row[c.quantity]?).getD [] = Utf8.encode (before ++ (toString r.quantity.toInt).toList ++ after)

variable {c : Columns} {row : Row} {r : OrderRequest} {i : Nat} {cs : List Char}

theorem field_of_encode (h : (row[i]?).getD [] = Utf8.encode cs) (name : String) :
    field row i name = .ok (String.ofList (Blank.trim cs)) := by
  unfold field
  rw [h, Utf8.decode_encode]

theorem field_of_text {s : String} (h : (row[i]?).getD [] = Utf8.ofString s) (name : String) :
    field row i name = .ok (trimmed s) := field_of_encode h name

/-- The decimal text of a quantity is read as that quantity. -/
theorem quantityOf_toString (q : Int32) : quantityOf (toString q.toInt) = .ok q := by
  have hread : readInt min32 max32 (toString q.toInt).toList = .ok q.toInt :=
    (readInt_eq_ok_iff (by decide) (by decide)).2 ⟨Numeral.writes_toString _, q.le_toInt, q.toInt_le⟩
  unfold quantityOf
  rw [hread]
  exact congrArg _ (Int32.ofInt_toInt q)

/-- Where every field reads, the quantity is read next, and then the request is validated. -/
theorem parse_of_fields {tenantId sellerId hubId skuId quantity : String}
    (hquantity : field row c.quantity "quantity" = .ok quantity)
    (htenant : field row c.tenantId "tenant_id" = .ok tenantId)
    (hseller : field row c.sellerId "seller_id" = .ok sellerId) (hhub : field row c.hubId "hub_id" = .ok hubId)
    (hsku : field row c.skuId "sku_id" = .ok skuId) :
    c.parse row = quantityOf quantity >>= fun q =>
      (OrderRequest.mk tenantId sellerId hubId skuId q).validate.map fun _ =>
        ⟨tenantId, sellerId, hubId, skuId, q⟩ := by
  unfold parse
  simp only [hquantity, htenant, hseller, hhub, hsku, bind, Except.bind]
  cases quantityOf quantity with
  | error e => rfl
  | ok q => cases (OrderRequest.mk tenantId sellerId hubId skuId q).validate <;> rfl

theorem parse_eq_validate (h : c.Holds row r) : c.parse row = r.trimmed.validate.map fun _ => r.trimmed := by
  obtain ⟨before, after, hbefore, hafter, hquantity⟩ := h.quantity
  have htrim : String.ofList (Blank.trim (before ++ (toString r.quantity.toInt).toList ++ after)) =
      toString r.quantity.toInt := by
    rw [Blank.trim_padded hbefore hafter, Blank.trim_eq_self fun x => Numeral.isBlank_toString, String.ofList_toList]
  have hfield := field_of_encode hquantity "quantity"
  rw [htrim] at hfield
  rw [parse_of_fields hfield (field_of_text h.tenantId _) (field_of_text h.sellerId _) (field_of_text h.hubId _)
    (field_of_text h.skuId _), quantityOf_toString]
  simp only [bind, Except.bind, OrderRequest.trimmed]

end Columns

/-- A row and a request that hold the same are judged alike: the row is parsed to the trimmed request when that is
valid, and is refused for the fault of that request when it is not. Trimming for a second time changes nothing, and
trimming changes no verdict. -/
theorem row_verdict_eq_request_verdict :
    (∀ (c : Columns) (row : Row) (r : OrderRequest), c.Holds row r →
      c.parse row = r.trimmed.validate.map (fun _ => r.trimmed) ∧
      ∀ topic s d d' e,
        (createOrder topic r d).1 = .error (.invalid e) ↔ (ingestRow s c row d').1 = .error (.invalid e)) ∧
    ∀ r : OrderRequest, r.trimmed.trimmed = r.trimmed ∧ r.trimmed.validate = r.validate := by
  refine ⟨fun c row r h => ?_, fun r => ⟨r.trimmed_idem, r.validate_trimmed⟩⟩
  have hparse := Columns.parse_eq_validate h
  refine ⟨hparse, fun topic s d d' e => ?_⟩
  obtain ⟨res, d₁, cs, hcreate, creating, -⟩ := createOrder_spec topic r d
  obtain ⟨res', d₂, cs', hrow, taking, -⟩ := ingestRow_spec s c row d'
  rw [hcreate, hrow, creating.invalid_iff e, taking.invalid_iff e, hparse]
  cases r.trimmed.validate <;> simp [Except.map]

/-- The quantity stands first, and the field of the seller is missing. -/
def quantityFirst : Columns := ⟨3, 4, 2, 1, 0⟩

/-- White space stands around the quantity and at the ends of two identifiers. -/
def paddedRow : Row :=
  [Utf8.ofString "\u00a0-7\t", Utf8.ofString " k1\n", Utf8.ofString "h1", Utf8.ofString "t1\u2003"]

theorem row_verdict_eq_request_verdict_of_padded :
    quantityFirst.Holds paddedRow ⟨"t1\u2003", "", "h1", " k1\n", -7⟩ ∧
      quantityFirst.parse paddedRow = .error (.missingField "seller_id") := by
  have holds : quantityFirst.Holds paddedRow ⟨"t1\u2003", "", "h1", " k1\n", -7⟩ :=
    { tenantId := by decide
      sellerId := by decide
      hubId := by decide
      skuId := by decide
      quantity := ⟨['\u00a0'], ['\t'], List.forall_mem_singleton.2 (by decide),
        List.forall_mem_singleton.2 (by decide), by decide⟩ }
  exact ⟨holds, (row_verdict_eq_request_verdict.1 _ _ _ holds).1.trans rfl⟩

end Fulfilment
