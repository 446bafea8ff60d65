import Fulfilment.Inventory.Remote
import Fulfilment.Proofs.Json.RecordValue
import Fulfilment.Proofs.Url.Query

/-!
# Requests to a service that keeps stock

What the two requests say to whoever receives them. A lookup gets what is at the address of the stock, and its query
is read as a form with the hub and the article (`lookupRequest_asks`). A put goes to the same address, and its body is
an object with the tenant, the hub, the article and the figure, which is read back as that (`updateRequest_puts`).
-/

namespace Fulfilment

open Json

namespace Http

/-- The request asks for the article at the hub: of what is at the address it gets what its query says, behind what
the query of the address said before. -/
structure Outgoing.Asks (r : Outgoing) (url : Url) (hubId skuId : String) : Prop where
  method : r.method = "GET"
  address : ∃ query, r.url = { url with query := some query } ∧
    Form.decode (Utf8.encode query) =
      Form.decode (Utf8.encode (url.query.getD [])) ++ [("hub_id", hubId), ("sku_ids", skuId)]
  body : r.body = []

/-- The request puts a figure at the address, as a document that says for which tenant, hub and article it is. -/
structure Outgoing.Puts (r : Outgoing) (url : Url) (tenantId hubId skuId : String) (quantity : Int64) : Prop where
  method : r.method = "PUT"
  address : r.url = url
  mediaType : r.headers.lookup "content-type" = some (Utf8.ofString "application/json")
  body : r.body =
    (Value.object [("tenant_id", .text tenantId), ("hub_id", .text hubId), ("sku_id", .text skuId),
      ("quantity", .int quantity.toInt)]).written
  read : Record.parse r.body = .ok (⟨tenantId, hubId, skuId, quantity⟩ : StockUpdate)

end Http

theorem StockUpdate.lawful (u : StockUpdate) : Record.Lawful u where
  names := by decide
  each := by
    refine List.forall_mem_cons.2 ⟨Codec.text_lawful _, ?_⟩
    refine List.forall_mem_cons.2 ⟨Codec.text_lawful _, ?_⟩
    refine List.forall_mem_cons.2 ⟨Codec.text_lawful _, ?_⟩
    exact List.forall_mem_singleton.2 (Codec.int64_lawful _)

namespace Inventory

theorem lookupRequest_asks (url : Url) (hubId skuId : String) :
    (lookupRequest url hubId skuId).Asks url hubId skuId where
  method := rfl
  address := by
    obtain ⟨query, hquery, hentries⟩ := url.exists_query_withEntries [("hub_id", hubId), ("sku_ids", skuId)]
    exact ⟨query, congrArg (fun q => { url with query := q }) hquery, hentries⟩
  body := rfl

theorem updateRequest_puts (url : Url) (tenantId hubId skuId : String) (quantity : Int64) :
    (updateRequest url ⟨tenantId, hubId, skuId, quantity⟩).Puts url tenantId hubId skuId quantity where
  method := rfl
  address := rfl
  mediaType := rfl
  body := (StockUpdate.lawful ⟨tenantId, hubId, skuId, quantity⟩).encode_eq_written
  read := (StockUpdate.lawful ⟨tenantId, hubId, skuId, quantity⟩).parse_encode

end Inventory

end Fulfilment
