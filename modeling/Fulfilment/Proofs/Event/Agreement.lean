import Fulfilment.Proofs.Event.Delivery
import Fulfilment.Proofs.Json.Agreement

/-!
# Two readers of one announcement

The finalizer reads the announcement of an order as the record that it is, and the dispatcher takes the record from a
free-form value. They do not refuse the same announcements, but they never take one for two different orders
(`OrderCreated.readers_agree`).
-/

namespace Fulfilment

open Json

theorem OrderCreated.agrees : Record.Agrees OrderCreated where
  names := by decide
  each := by
    refine List.forall_mem_cons.2 ⟨Codec.converted_agrees _ _ _, ?_⟩
    refine List.forall_mem_cons.2 ⟨Codec.converted_agrees _ _ _, ?_⟩
    refine List.forall_mem_cons.2 ⟨Codec.converted_agrees _ _ _, ?_⟩
    refine List.forall_mem_cons.2 ⟨Codec.converted_agrees _ _ _, ?_⟩
    refine List.forall_mem_cons.2 ⟨Codec.converted_agrees _ _ _, ?_⟩
    refine List.forall_mem_cons.2 ⟨Codec.integer_agrees _ _ _ _ _, ?_⟩
    exact List.forall_mem_singleton.2 (Codec.converted_agrees _ _ _)

namespace LifecycleEvent

variable {payload : Bytes}

theorem tenantOf?_eq_some_iff {v : Value} {tenantId : String} : tenantOf? v = some tenantId ↔
    ∃ members, v = .object members ∧ Value.lookup "tenant_id" members = some (.text tenantId) := by
  constructor
  · intro h
    obtain ⟨w, hget, htext⟩ := Option.bind_eq_some_iff.1 h
    cases v with
    | object members =>
      cases w with
      | text s =>
        cases htext
        exact ⟨members, rfl, hget⟩
      | _ => cases htext
    | _ => cases hget
  · rintro ⟨members, rfl, hlookup⟩
    exact Option.bind_eq_some_iff.2 ⟨_, hlookup, rfl⟩

theorem of_decode_created {e : OrderCreated} (h : decode Topic.orderCreated payload = .ok (.created e)) :
    ∃ members, Value.parse payload = .ok (.object members) ∧ Record.ofValue (.object members) = .ok e := by
  obtain ⟨v, hv, -, ⟨tenantId, htenant⟩, taken⟩ := of_decode h
  obtain ⟨members, rfl, -⟩ := tenantOf?_eq_some_iff.1 htenant
  generalize Topic.orderCreated = name at taken
  cases taken with
  | created record => exact ⟨members, hv, record⟩

end LifecycleEvent

namespace OrderCreated

/-- Where the finalizer and the dispatcher both come to an event, they come to the same one, and work on it. -/
theorem readers_agree {payload : Bytes} {e e' : OrderCreated} (read : Record.parse payload = .ok e)
    (taken : LifecycleEvent.decode Topic.orderCreated payload = .ok (.created e')) :
    e = e' ∧ ∀ key updatedTopic failedTopic,
      finalizer updatedTopic ⟨Topic.orderCreated, key, payload⟩ = quietly (finalize updatedTopic e) ∧
      dispatcher failedTopic ⟨Topic.orderCreated, key, payload⟩ = quietly (dispatch failedTopic (.created e)) := by
  obtain ⟨members, hparse, hrecord⟩ := LifecycleEvent.of_decode_created taken
  obtain rfl : e = e' := agrees.eq_of_parse read hparse hrecord
  exact ⟨rfl, fun _ updatedTopic _ => ⟨finalizer_of_parse updatedTopic read, dispatcher_of_decode taken⟩⟩

/-- An announcement with notes, which are no field of it, in an order of its own. -/
def noted : Bytes := Utf8.ofString (" \x7b\"quantity\" : 2, \"note\" : [1.5, null], \"tenant_id\":\"t\\u0031\"," ++
  "\"order_id\":\"00000000-0000-0000-0000-000000000007\", \"seller_id\":\"s1\", " ++
  "\"note\":\x7b\x7d, \"hub_id\":\"h1\"," ++ "\"created_at\":\"2024-05-01T12:00:00.5+02:00\", \"sku_id\":\"k1\"\x7d ")

theorem readers_agree_on_noted : ∃ e, Record.parse noted = .ok e ∧ (e.tenantId, e.quantity) = ("t1", 2) ∧
    LifecycleEvent.decode Topic.orderCreated noted = .ok (.created e) ∧
    ∀ key updatedTopic failedTopic,
      finalizer updatedTopic ⟨Topic.orderCreated, key, noted⟩ = quietly (finalize updatedTopic e) ∧
      dispatcher failedTopic ⟨Topic.orderCreated, key, noted⟩ = quietly (dispatch failedTopic (.created e)) := by
  have hread : (Record.parse noted : Except Fault OrderCreated).toOption.map (fun e => (e.tenantId, e.quantity)) =
      some ("t1", 2) := by
    decide +kernel
  obtain ⟨e, hread, hfields⟩ := Option.map_eq_some_iff.1 hread
  have read := Program.eq_ok_of_toOption hread
  have htaken : (match LifecycleEvent.decode Topic.orderCreated noted with
      | .ok (.created _) => true
      | _ => false) = true := by
    decide +kernel
  split at htaken
  · rename_i e' taken
    obtain ⟨rfl, hworks⟩ := readers_agree read taken
    exact ⟨e, read, hfields, taken, hworks⟩
  · cases htaken

end OrderCreated

end Fulfilment
