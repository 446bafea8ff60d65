import Fulfilment.Proofs.Inventory.Remote

/-!
# What a lookup asks for

The request for the records of an article at a hub tells the two names, and nothing of them gets lost or stands for
anything else, whatever characters they hold: whoever reads the query of the request as a form reads just the two
names (`lookup_asks`).
-/

namespace Fulfilment

namespace Inventory

open Http (Wire)

theorem mem_stockAddress {base : String} {c : Char} (h : c ∈ (stockAddress base).toList) :
    c ∈ base.toList ∨ c ∈ "/inventory".toList := by
  rw [stockAddress, String.toList_append, String.toList_ofList, List.mem_append, List.mem_reverse] at h
  rcases h with h | h
  · exact .inl (List.mem_reverse.1 ((List.dropWhile_sublist _).subset h))
  · exact .inr h

/-- What the target of a lookup is read as. -/
theorem read_lookupRequest {url : Url} (sendable : url.Sendable) (hubId skuId : String) :
    ∃ query, Http.Target.ofPath (Utf8.encode (lookupRequest url hubId skuId).url.target) =
        .ok ⟨Utf8.encode url.path, some query⟩ ∧
      Form.decode query =
        Form.decode (Utf8.encode (url.query.getD [])) ++ [("hub_id", hubId), ("sku_ids", skuId)] := by
  obtain ⟨query, hquery, hentries⟩ := url.exists_query_withEntries [("hub_id", hubId), ("sku_ids", skuId)]
  exact ⟨Utf8.encode query, Url.ofPath_target (sendable.withEntries _) hquery, hentries⟩

/-- Requests for different articles, or for an article at different hubs, have different targets. -/
theorem eq_of_target_lookupRequest {url url' : Url} (sendable : url.Sendable) (sendable' : url'.Sendable)
    {hubId skuId hubId' skuId' : String}
    (h : (lookupRequest url hubId skuId).url.target = (lookupRequest url' hubId' skuId').url.target) :
    hubId = hubId' ∧ skuId = skuId' := by
  obtain ⟨query, hread, hentries⟩ := read_lookupRequest sendable hubId skuId
  obtain ⟨query', hread', hentries'⟩ := read_lookupRequest sendable' hubId' skuId'
  rw [h, hread'] at hread
  obtain rfl : query' = query := Option.some.inj (congrArg Http.Target.query (Except.ok.inj hread))
  have hnames := (List.append_inj' (hentries.symm.trans hentries') rfl).2
  simpa using hnames

theorem query_eq_none_of_bare {base : String} {url : Url} (stands : Http.address? (stockAddress base) = .ok url)
    (web : url.isHttp = true) (bare : '?' ∉ base.toList) : url.query = none := by
  apply Url.query_eq_none (Http.parse?_of_address? stands) web
  intro hmark
  rcases mem_stockAddress hmark with h | h
  · exact bare h
  · revert h
    decide +kernel

/-- A lookup makes one request, to get what is at the address. Whoever reads its target finds a query, and reads in
it, as a form, the hub and the article as they were given, in this order, behind what the address of the service may
hold itself; so where that holds no question mark, there is nothing else. Two lookups have the same target only if
both the hub and the article are the same, even at addresses that differ. -/
theorem lookup_asks {base : String} {url : Url} (stands : Http.address? (stockAddress base) = .ok url)
    (web : url.isHttp = true) (hubId skuId : String) (w : Wire) :
    let request := lookupRequest url hubId skuId
    (∃ found, (remote Wire.send base).lookup hubId skuId w = (found, w.after request)) ∧
      request.method = "GET" ∧
      (∃ query, Http.Target.ofPath (Utf8.encode request.url.target) = .ok ⟨Utf8.encode url.path, some query⟩ ∧
        Form.decode query =
          Form.decode (Utf8.encode (url.query.getD [])) ++ [("hub_id", hubId), ("sku_ids", skuId)] ∧
        ('?' ∉ base.toList → Form.decode query = [("hub_id", hubId), ("sku_ids", skuId)])) ∧
      ∀ (base' : String) (url' : Url), Http.address? (stockAddress base') = .ok url' → url'.isHttp = true →
        ∀ hubId' skuId', (lookupRequest url' hubId' skuId').url.target = request.url.target →
          hubId' = hubId ∧ skuId' = skuId := by
  intro request
  have sendable : url.Sendable := Url.sendable_of_parse? (Http.parse?_of_address? stands) web
  refine ⟨?_, rfl, ?_, ?_⟩
  · obtain ⟨found, hlookup, -⟩ := lookup_remote stands web hubId skuId w
    exact ⟨found, hlookup⟩
  · obtain ⟨query, hread, hentries⟩ := read_lookupRequest sendable hubId skuId
    refine ⟨query, hread, hentries, fun bare => ?_⟩
    rw [hentries, query_eq_none_of_bare stands web bare]
    rfl
  · intro base' url' stands' web' hubId' skuId' htarget
    have sendable' : url'.Sendable := Url.sendable_of_parse? (Http.parse?_of_address? stands') web'
    exact eq_of_target_lookupRequest sendable' sendable htarget

/-- A hub whose name looks like a second article in the query is asked for by its name, and differently from the hub
and the article that it looks like. -/
theorem lookup_asks_of_marked :
    ∃ url, Http.address? (stockAddress "http://inventory.test/") = .ok url ∧ url.isHttp = true ∧
      '?' ∉ "http://inventory.test/".toList ∧
      (∃ path query, Http.Target.ofPath (Utf8.encode (lookupRequest url "h1&sku_ids=k1" "é #+%").url.target) =
          .ok ⟨path, some query⟩ ∧
        Form.decode query = [("hub_id", "h1&sku_ids=k1"), ("sku_ids", "é #+%")]) ∧
      (lookupRequest url "h1" "k1&sku_ids=é #+%").url.target ≠
        (lookupRequest url "h1&sku_ids=k1" "é #+%").url.target := by
  have bare : '?' ∉ "http://inventory.test/".toList := by decide +kernel
  obtain ⟨url, stands, web⟩ := Http.exists_web_address (stockAddress "http://inventory.test/") (by decide +kernel)
  obtain ⟨-, -, ⟨query, hread, -, hentries⟩, hsame⟩ :=
    lookup_asks stands web "h1&sku_ids=k1" "é #+%" fiveAndDropped
  refine ⟨url, stands, web, bare, ⟨_, query, hread, hentries bare⟩, fun htarget => ?_⟩
  have hnames := hsame _ url stands web _ _ htarget
  revert hnames
  decide

end Inventory

end Fulfilment
