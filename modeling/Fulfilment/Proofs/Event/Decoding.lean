import Fulfilment.Proofs.Event.Agreement
import Fulfilment.Proofs.Json.Grammar.Members

/-!
# Decoding events

An event is decoded in three steps that may each refuse it: its payload must be a document, the document must name a
tenant, and under a known name it must have the fields of the event. What comes out tells the tenant that was named,
and is in normal form: decoded from its own text it is the same event once more (`LifecycleEvent.decode_laws`).
-/

namespace Fulfilment

open Json

namespace LifecycleEvent

variable {name tenantId : String} {payload : Bytes} {v : Value} {members : List (String × Value)} {e : LifecycleEvent}

/-! ### The named tenant -/

/-- The payload is an object, in which the last member of the name `tenant_id` is this text. -/
def NamesTenant (payload : Bytes) (tenantId : String) : Prop :=
  ∃ members, ObjectDocument payload members ∧ Value.IsLast "tenant_id" (.text tenantId) members

theorem namesTenant_iff :
    NamesTenant payload tenantId ↔ ∃ v, Value.parse payload = .ok v ∧ tenantOf? v = some tenantId := by
  constructor
  · rintro ⟨members, hdocument, hlast⟩
    exact ⟨_, Value.parse_eq_object_iff.2 ⟨members, hdocument, rfl⟩,
      tenantOf?_eq_some_iff.2 ⟨_, rfl, Value.lookup_insertAll_eq_some_iff.2 hlast⟩⟩
  · rintro ⟨v, hv, htenant⟩
    obtain ⟨_, rfl, hlookup⟩ := tenantOf?_eq_some_iff.1 htenant
    obtain ⟨members, hdocument, rfl⟩ := Value.parse_eq_object_iff.1 hv
    exact ⟨members, hdocument, Value.lookup_insertAll_eq_some_iff.1 hlookup⟩

/-- A field of the name `tenant_id` that must be there is the tenant that is named. -/
theorem eq_tenantId_of_hold {fs : List Field} {slots : Slots fs} {row : Json.Row fs} {s : String}
    (holds : slots.Hold fs members) (htoRow : slots.toRow fs = .ok row)
    (hmem : ⟨.required "tenant_id" .text, s⟩ ∈ Json.Row.entries fs row)
    (hlookup : Value.lookup "tenant_id" members = some (.text tenantId)) : s = tenantId := by
  have htaken : (Value.lookup "tenant_id" members).map Codec.text.ofValue = some (.ok s) :=
    holds.taken htoRow hmem rfl
  rw [hlookup] at htaken
  cases htaken
  rfl

theorem tenantId_of_taken (ascending : Value.Ascending members)
    (hlookup : Value.lookup "tenant_id" members = some (.text tenantId)) (taken : Taken (.object members) name e) :
    e.tenantId = tenantId := by
  cases taken with
  | @created event record =>
    obtain ⟨slots, row, holds, htoRow, rfl⟩ := Record.exists_hold_of_ofValue event.lawful.names ascending record
    exact eq_tenantId_of_hold holds htoRow (.tail _ (.head _)) hlookup
  | @updated event record =>
    obtain ⟨slots, row, holds, htoRow, rfl⟩ := Record.exists_hold_of_ofValue event.lawful.names ascending record
    exact eq_tenantId_of_hold holds htoRow (.tail _ (.head _)) hlookup
  | other => exact congrArg (Option.getD · "") (tenantOf?_eq_some_iff.2 ⟨_, rfl, hlookup⟩)

theorem namesTenant_of_decode (h : decode name payload = .ok e) : NamesTenant payload e.tenantId := by
  obtain ⟨v, hv, -, ⟨tenantId, named⟩, taken⟩ := of_decode h
  obtain ⟨_, rfl, hlookup⟩ := tenantOf?_eq_some_iff.1 named
  obtain ⟨members, hdocument, rfl⟩ := Value.parse_eq_object_iff.1 hv
  rw [tenantId_of_taken (Value.Ascending.insertAll .nil) hlookup taken]
  exact ⟨members, hdocument, Value.lookup_insertAll_eq_some_iff.1 hlookup⟩

/-! ### Refusals -/

theorem decode_of_parse (hv : Value.parse payload = .ok v) : decode name payload = ofValue name v := by
  rw [decode, hv]

theorem decode_malformed_iff :
    (∃ fault, decode name payload = .error (.malformed fault)) ↔ ∀ v, ¬ Document payload v := by
  constructor
  · rintro ⟨fault, h⟩ v hdocument
    rw [decode_of_parse (Value.parse_eq_ok_iff.2 hdocument)] at h
    cases h ▸ answer_ofValue name v
  · intro h
    unfold decode
    cases hv : Value.parse payload with
    | error fault => exact ⟨fault, rfl⟩
    | ok v => exact absurd (Value.parse_eq_ok_iff.1 hv) (h v)

/-- A payload that is refused, but not as malformed, holds a value that is refused. -/
theorem of_decode_error {error : DecodeError} (h : decode name payload = .error error)
    (formed : ∀ fault, error ≠ .malformed fault) :
    ∃ v, Value.parse payload = .ok v ∧ ofValue name v = .error error := by
  unfold decode at h
  split at h
  · cases h
    exact absurd rfl (formed _)
  · exact ⟨_, by assumption, h⟩

theorem decode_missingTenant_iff : decode name payload = .error .missingTenant ↔
    (∃ v, Document payload v) ∧ ∀ tenantId, ¬ NamesTenant payload tenantId := by
  constructor
  · intro h
    obtain ⟨v, hv, hrefused⟩ := of_decode_error h nofun
    refine ⟨⟨v, Value.parse_eq_ok_iff.1 hv⟩, fun tenantId hnames => ?_⟩
    obtain ⟨_, hv', named⟩ := namesTenant_iff.1 hnames
    cases hv.symm.trans hv'
    cases hrefused ▸ answer_ofValue name v with
    | missingTenant unnamed => cases unnamed.symm.trans named
  · rintro ⟨⟨v, hdocument⟩, unnamed⟩
    have hv := Value.parse_eq_ok_iff.2 hdocument
    have hnone : ∀ tenantId, tenantOf? v ≠ some tenantId :=
      fun tenantId named => unnamed tenantId (namesTenant_iff.2 ⟨v, hv, named⟩)
    rw [decode_of_parse hv]
    have answer := answer_ofValue name v
    generalize ofValue name v = result at answer
    cases answer with
    | missingTenant => rfl
    | schema named => exact absurd named (hnone _)
    | ok named => exact absurd named (hnone _)

theorem of_decode_schema {event : String} {mismatch : Mismatch}
    (h : decode name payload = .error (.schema event mismatch)) :
    event = name ∧ (name = Topic.orderCreated ∨ name = Topic.orderUpdated) := by
  obtain ⟨v, -, hrefused⟩ := of_decode_error h nofun
  cases hrefused ▸ answer_ofValue name v with
  | schema _ known => exact ⟨rfl, known⟩

/-! ### The normal form -/

/-- An event that is decoded is decoded from its own text too, if its numbers are integers. -/
theorem decode_data (h : decode name payload = .ok e)
    (whole : name = Topic.orderCreated ∨ name = Topic.orderUpdated ∨ e.data.floatless = true) :
    decode name e.data.written = .ok e := by
  obtain ⟨v, hv, -, -, taken⟩ := of_decode h
  cases taken with
  | @created event _ =>
    obtain ⟨kept, flat⟩ := event.lawful.kept_toValue
    have hdata : Value.parse (created event).data.written = .ok (Record.toValue event) :=
      kept.parse_written (Nat.le_trans flat (by decide))
    exact (decode_of_parse hdata).trans ((decode_encode event.lawful _).symm.trans (decode_created event))
  | @updated event _ =>
    obtain ⟨kept, flat⟩ := event.lawful.kept_toValue
    have hdata : Value.parse (updated event).data.written = .ok (Record.toValue event) :=
      kept.parse_written (Nat.le_trans flat (by decide))
    exact (decode_of_parse hdata).trans ((decode_encode event.lawful _).symm.trans (decode_updated event))
  | other hcreated hupdated =>
    have hfloatless := (whole.resolve_left hcreated).resolve_left hupdated
    have hdata := (Value.kept_of_parse hv hfloatless).parse_written (Value.depth_le_of_parse hv)
    exact (decode_of_parse hdata).trans ((decode_of_parse hv).symm.trans h)

/-- A payload is refused as malformed if it is no document, else for its tenant if it names none, and for its fields
only under a known name. The event of a payload that is not refused has the name it was decoded by and the tenant that
is named, and it is decoded from its own text too, where its numbers are integers. -/
theorem decode_laws (name : String) (payload : Bytes) :
    ((∃ fault, decode name payload = .error (.malformed fault)) ↔ ∀ v, ¬ Document payload v) ∧
    (decode name payload = .error .missingTenant ↔
      (∃ v, Document payload v) ∧ ∀ tenantId, ¬ NamesTenant payload tenantId) ∧
    (∀ event mismatch, decode name payload = .error (.schema event mismatch) →
      event = name ∧ (name = Topic.orderCreated ∨ name = Topic.orderUpdated)) ∧
    ∀ e, decode name payload = .ok e → e.name = name ∧ NamesTenant payload e.tenantId ∧
      (name = Topic.orderCreated ∨ name = Topic.orderUpdated ∨ e.data.floatless = true →
        decode name e.data.written = .ok e) := by
  refine ⟨decode_malformed_iff, decode_missingTenant_iff, fun _ _ => of_decode_schema, fun e h => ?_⟩
  obtain ⟨-, -, hname, -⟩ := of_decode h
  exact ⟨hname, namesTenant_of_decode h, decode_data h⟩

example : (decode "order.cancelled"
    (Utf8.ofString "\x7b\"tenant_id\": \"t1\", \"tenant_id\": \"t2\"\x7d")).toOption.map
      (fun e => (e.name, e.tenantId)) = some ("order.cancelled", "t2") := by
  decide +kernel

end LifecycleEvent

end Fulfilment
